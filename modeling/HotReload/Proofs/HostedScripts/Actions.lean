import HotReload.Proofs.Script.Calls

/-! # Scripts on a stage

    Here a stage stands with the scripts that work on it, and everything that can happen
    to the two: scripts are loaded and called, entities come and go, ticks run, and the
    surroundings change, which are the files, the compiler and the clock.

    Nothing but scripts asks the stage for instances.  Otherwise the order of the
    actions is free, and an action that makes no sense does nothing. -/

namespace HotReload

/-- A workspace with a stage, and the scripts that have been loaded in it, oldest first. -/
structure HostedScripts where
  workspace : Workspace Stage
  scripts : List Script

/-- What can happen to a stage and its scripts. -/
inductive Action where
  /-- Sources are edited. -/
  | edit (files : Files)
  /-- Others make use of the compiler, or offer modules to it. -/
  | lend (context : Context)
  /-- The next compile will take some time. -/
  | delay (lapse : Nat)
  | load (identity : String) (p : Path) (options : ScriptOptions)
  /-- The owner of a script, who knows it by its place, calls it. -/
  | call (k : Nat) (c : Script.Call)
  | spawn (name : String)
  | despawn (e : Entity)
  | tick (dt : Float32)
  /-- The stage begins to follow the modules of the compiler. -/
  | share

namespace HostedScripts

/-- The beginning, with an empty stage and without scripts. -/
def fresh (w : Workspace Stage) : HostedScripts := ⟨{ w with host := {} }, []⟩

/-- The stage. -/
def stage (c : HostedScripts) : Stage := c.workspace.host

/-- Whether an entity is alive. -/
def alive (c : HostedScripts) (e : Entity) : Bool := c.stage.world.contains e

/-- The instances on an entity. -/
def instancesOn (c : HostedScripts) (e : Entity) : List Instance := c.stage.world.instancesOn e

/-- Changes the stage. -/
def withStage (c : HostedScripts) (s : Stage) : HostedScripts := { c with workspace := { c.workspace with host := s } }

/-- What an action leads to. -/
def step (c : HostedScripts) : Action → HostedScripts
  | .edit files => { c with workspace := { c.workspace with files } }
  | .lend context => { c with workspace := { c.workspace with context } }
  | .delay lapse => { c with workspace := { c.workspace with lapse } }
  | .load identity p options =>
    match Script.load c.workspace identity p options with
    | (workspace, .ok s) => ⟨workspace, c.scripts ++ [s]⟩
    | (workspace, .error _) => { c with workspace }
  | .call k called =>
    match c.scripts[k]? with
    | none => c
    | some s => ⟨(s.call c.workspace called).1, c.scripts.set k (s.call c.workspace called).2⟩
  | .spawn name => c.withStage (c.stage.spawnNamed name).1
  | .despawn e => c.withStage (c.stage.despawn e).1
  | .tick dt => { c with workspace := c.workspace.tick dt }
  | .share => c.withStage (c.stage.follow c.workspace.context.modules)

section steps
variable {c : HostedScripts} {k : Nat} {called : Script.Call} {w : Workspace Stage} {identity : String} {p : Path}
  {options : ScriptOptions}

theorem step_load_of_ok {s : Script} (h : Script.load c.workspace identity p options = (w, .ok s)) :
    c.step (.load identity p options) = ⟨w, c.scripts ++ [s]⟩ := by
  simp [step, h]

theorem step_load_of_error {error : ScriptError}
    (h : Script.load c.workspace identity p options = (w, .error error)) :
    c.step (.load identity p options) = ⟨w, c.scripts⟩ := by
  simp [step, h]

theorem step_call_of_none (h : c.scripts[k]? = none) : c.step (.call k called) = c := by
  simp [step, h]

theorem step_call_of_some {s : Script} (h : c.scripts[k]? = some s) : c.step (.call k called) =
    ⟨(s.call c.workspace called).1, c.scripts.set k (s.call c.workspace called).2⟩ := by
  simp [step, h]

end steps

/-- Actions one after the other. -/
def run (c : HostedScripts) (actions : List Action) : HostedScripts := actions.foldl step c

@[simp] theorem run_nil (c : HostedScripts) : c.run [] = c := rfl

@[simp] theorem run_cons (c : HostedScripts) (a : Action) (rest : List Action) :
    c.run (a :: rest) = (c.step a).run rest :=
  rfl

theorem run_append (c : HostedScripts) (before after : List Action) :
    c.run (before ++ after) = (c.run before).run after :=
  List.foldl_append

/-- Whatever every action keeps, every run keeps. -/
theorem run_induction {motive : HostedScripts → Prop} (hstep : ∀ c a, motive c → motive (c.step a)) {c : HostedScripts}
    (h : motive c) (actions : List Action) : motive (c.run actions) := by
  induction actions generalizing c with
  | nil => exact h
  | cons a rest ih => exact ih (hstep c a h)

end HostedScripts

namespace Script

/-- Whether a call goes so far as to take the instances of a script away, in order to compile it
    anew: a recompile, unless the source is unchanged, and an update that answers a change. -/
def reloads (w : Workspace Stage) (s : Script) : Call → Bool
  | .recompile => !s.isUnchanged (w.readSource s.path)
  | .update => !s.discarded && s.signal.raised && !s.isUnchanged (w.readSource s.path)
  | _ => false

end Script

end HotReload
