import HotReload.Proofs.World.Hooks
import Mathlib.Logic.Function.Basic

/-! # Which modules a stage has installed

    A stage that follows a module set installs what the set has gained, and it does so
    before any script runs.  It only remembers how many modules of the set it has seen to.
    That is enough because sets only grow, and at the end: what it has seen to is always the
    beginning of the set.

    Several sets may be about, anybody may add to each of them at any time, and the stage
    may be told to follow another one, or the same one once more.  Whatever was installed
    before stays in the engine, in front. -/

namespace HotReload

/-- What a stage installs from a set: everything but what bears the name of its own module. -/
def ModuleSet.installable (modules : ModuleSet) : Engine := modules.filter fun m => m.name ≠ stageModule.name

theorem ModuleSet.prefix_add (modules : ModuleSet) (m : HostModule) : modules <+: modules.add m := by
  unfold add
  split
  · exact List.prefix_rfl
  · exact List.prefix_append _ _

namespace Stage

/-! ## Section 1 - requests -/

/-- An operation that leaves it to the stage which modules there are. -/
inductive Request where
  | spawnNamed (name : String)
  | spawnBare (name : Option String)
  | despawn (e : Entity)
  | add (e : Entity) (type : BehaviourType)
  | destroy (r : InstanceRef)
  | tick (dt : Float32)

/-- The operation that a request is when the set holds some modules. -/
def Request.op (modules : ModuleSet) : Request → Op
  | .spawnNamed name => .spawnNamed name
  | .spawnBare name => .spawnBare name
  | .despawn e => .despawn e
  | .add e type => .add modules e type
  | .destroy r => .destroy r
  | .tick dt => .tick modules dt

/-! ## Section 2 - keeping up with a set -/

/-- Behind what the engine held earlier stands what the stage has seen to of a set, which is its beginning.  A stage
    that does not follow any has nothing to see to. -/
structure Supplied (s : Stage) (earlier : Engine) (modules : ModuleSet) : Prop where
  idle : s.following = false → modules = []
  caught : s.caughtUp ≤ modules.length
  engine : s.engine = earlier ++ ModuleSet.installable (modules.take s.caughtUp)

namespace Supplied
variable {s s' : Stage} {earlier : Engine} {modules : ModuleSet}

/-- The world has no say in it. -/
theorem congr (h : s.Supplied earlier modules) (hfollowing : s'.following = s.following)
    (hcaught : s'.caughtUp = s.caughtUp) (hengine : s'.engine = s.engine) : s'.Supplied earlier modules where
  idle := hfollowing ▸ h.idle
  caught := hcaught ▸ h.caught
  engine := by rw [hengine, hcaught, h.engine]

/-- What a set gains comes behind what the stage has seen to. -/
theorem grow (h : s.Supplied earlier modules) (hf : s.following = true) {modules' : ModuleSet}
    (hgrow : modules <+: modules') : s.Supplied earlier modules' := by
  obtain ⟨gained, rfl⟩ := hgrow
  exact
    { idle := fun hidle => absurd (hf.symm.trans hidle) (by simp)
      caught := Nat.le_trans h.caught (by simp)
      engine := by rw [List.take_append_of_le_length h.caught, h.engine] }

/-- After the stage has caught up, the whole set is installed. -/
theorem engine_sync (h : s.Supplied earlier modules) :
    (s.sync modules).engine = earlier ++ modules.installable := by
  unfold sync
  split
  · -- the part that is installed now is the rest of the set
    show s.engine ++ _ = _
    rw [h.engine, List.append_assoc]
    congr 1
    unfold ModuleSet.installable
    rw [← List.filter_append, List.take_append_drop]
  · next hf =>
    have hnone := h.idle (by simpa using hf)
    subst hnone
    simpa using h.engine

theorem sync (h : s.Supplied earlier modules) : (s.sync modules).Supplied earlier modules := by
  have hengine := h.engine_sync
  unfold Stage.sync at hengine ⊢
  split at hengine
  · next hf =>
    rw [if_pos hf]
    exact ⟨fun hidle => absurd (hf.symm.trans hidle) (by simp), Nat.le_refl _, by
      rw [List.take_length]; exact hengine⟩
  · next hf =>
    rw [if_neg hf]
    exact h

/-- A stage that begins to follow a set installs all of it, behind whatever there is. -/
theorem follow (s : Stage) (modules : ModuleSet) : (s.follow modules).Supplied s.engine modules :=
  sync (s := { s with following := true, caughtUp := 0 })
    { idle := fun hidle => absurd hidle (by simp)
      caught := Nat.zero_le _
      engine := by simp [ModuleSet.installable] }

theorem request (h : s.Supplied earlier modules) (a : Request) :
    (s.act (a.op modules)).Supplied earlier modules := by
  cases a with
  | spawnNamed name => exact h.congr rfl rfl rfl
  | spawnBare name => exact h.congr rfl rfl rfl
  | despawn e => exact h.congr rfl rfl rfl
  | add e type =>
    show (s.addBehaviour modules e type).host.Supplied earlier modules
    rcases s.addBehaviour_cases modules e type with ⟨-, heq⟩ | ⟨-, fault, printed, -, heq⟩ |
      ⟨-, fields, printed, -, heq⟩ <;> rw [heq]
    · exact h
    · exact h.sync
    · exact h.sync.congr rfl rfl rfl
  | destroy r =>
    show (s.destroyBehaviour r).1.Supplied earlier modules
    rcases s.destroyBehaviour_cases r with ⟨-, heq⟩ | ⟨-, heq⟩ <;> rw [heq]
    · exact h
    · exact h.congr rfl rfl rfl
  | tick dt => exact h.sync.congr rfl rfl rfl

end Supplied

/-- A request is no matter of following, and a stage that follows no set installs nothing. -/
theorem following_request (s : Stage) (modules : ModuleSet) (a : Request) :
    (s.act (a.op modules)).following = s.following ∧
      (s.following = false → (s.act (a.op modules)).engine = s.engine) := by
  have hsync : (s.sync modules).following = s.following ∧
      (s.following = false → (s.sync modules).engine = s.engine) := by
    unfold sync
    split
    · next hf => exact ⟨rfl, fun hf' => absurd (hf.symm.trans hf') (by simp)⟩
    · exact ⟨rfl, fun _ => rfl⟩
  cases a with
  | add e type =>
    simp only [Request.op, act]
    rcases s.addBehaviour_cases modules e type with ⟨-, heq⟩ | ⟨-, fault, printed, -, heq⟩ |
      ⟨-, fields, printed, -, heq⟩ <;> rw [heq]
    · exact ⟨rfl, fun _ => rfl⟩
    · exact hsync
    · exact hsync
  | destroy r =>
    simp only [Request.op, act]
    rcases s.destroyBehaviour_cases r with ⟨-, heq⟩ | ⟨-, heq⟩ <;> rw [heq]
    · exact ⟨rfl, fun _ => rfl⟩
    · exact ⟨rfl, fun _ => rfl⟩
  | tick dt => exact hsync
  | _ => exact ⟨rfl, fun _ => rfl⟩

end Stage

/-! ## Section 3 - several sets -/

/-- A stage among module sets that others hold as well. -/
structure ModuleSharing where
  stage : Stage := {}
  sets : Nat → ModuleSet := fun _ => []
  /-- The set that the stage was told to follow last. -/
  followed : Option Nat := none
  /-- What was installed before that. -/
  earlier : Engine := [stageModule]

namespace ModuleSharing

/-- What the set holds that the stage follows. -/
def current (s : ModuleSharing) : ModuleSet := (s.followed.map s.sets).getD []

/-- What can happen: somebody adds a module to a set, the stage is told to follow a set, or it gets a request. -/
inductive Move where
  | extend (k : Nat) (m : HostModule)
  | share (k : Nat)
  | request (a : Stage.Request)

def act (s : ModuleSharing) : Move → ModuleSharing
  | .extend k m => { s with sets := Function.update s.sets k ((s.sets k).add m) }
  | .share k =>
    { s with stage := s.stage.act (.follow (s.sets k)), followed := some k, earlier := s.stage.engine }
  | .request a => { s with stage := s.stage.act (a.op s.current) }

def run (s : ModuleSharing) (moves : List Move) : ModuleSharing := moves.foldl act s

/-- The books are in order: no set holds a name twice, the stage has its own module in front, and behind what was there
    earlier stands the beginning of the set that it follows. -/
structure Settled (s : ModuleSharing) : Prop where
  nodup : ∀ k, (s.sets k).names.Nodup
  own : s.earlier.head? = some stageModule
  following : s.stage.following = s.followed.isSome
  supplied : s.stage.Supplied s.earlier s.current

namespace Settled
variable {s : ModuleSharing}

theorem extend (h : s.Settled) (k : Nat) (m : HostModule) : (s.act (.extend k m)).Settled where
  nodup := by
    intro k'
    by_cases hk : k' = k
    · subst hk
      simpa [act] using ModuleSet.nodup_names_add (h.nodup k') m
    · simpa [act, hk] using h.nodup k'
  own := h.own
  following := h.following
  supplied := by
    have hsupplied := h.supplied
    unfold current at hsupplied ⊢
    have hfollowing := h.following
    cases hf : s.followed with
    | none => simpa [act, hf] using hsupplied
    | some k' =>
      rw [hf] at hfollowing
      have hgrow : s.sets k' <+: Function.update s.sets k ((s.sets k).add m) k' := by
        by_cases hk : k' = k
        · subst hk
          simpa using (s.sets k').prefix_add m
        · simp [hk]
      simpa [act, hf] using Stage.Supplied.grow (by simpa [hf] using hsupplied) hfollowing hgrow

theorem share (h : s.Settled) (k : Nat) : (s.act (.share k)).Settled where
  nodup := h.nodup
  own := by
    show s.stage.engine.head? = some stageModule
    rw [h.supplied.engine, List.head?_append, h.own]
    rfl
  following := by
    show (s.stage.follow (s.sets k)).following = true
    unfold Stage.follow Stage.sync
    rfl
  supplied := Stage.Supplied.follow s.stage (s.sets k)

theorem act (h : s.Settled) (move : Move) : (s.act move).Settled := by
  cases move with
  | extend k m => exact h.extend k m
  | share k => exact h.share k
  | request a =>
    exact ⟨h.nodup, h.own, (s.stage.following_request s.current a).1.trans h.following, h.supplied.request a⟩

theorem run (h : s.Settled) (moves : List Move) : (s.run moves).Settled := by
  induction moves generalizing s with
  | nil => exact h
  | cons move more ih => exact ih (h.act move)

theorem nodup_current (h : s.Settled) : s.current.names.Nodup := by
  unfold current
  cases s.followed with
  | none => exact List.nodup_nil
  | some k => exact h.nodup k

end Settled

theorem settled_start : Settled {} where
  nodup := fun _ => List.nodup_nil
  own := rfl
  following := rfl
  supplied := ⟨fun _ => rfl, Nat.le_refl _, by simp [current, ModuleSet.installable]⟩

/-! ## Section 4 - what scripts run against -/

/-- The engine that a script would run against: what was installed before the set was shared, and then the set. -/
def whole (s : ModuleSharing) : Engine := s.earlier ++ s.current.installable

/-- Every script that runs next runs against the whole set. -/
structure Whole (s : ModuleSharing) : Prop where
  /-- The module of the stage itself has been there from the beginning. -/
  own : s.earlier.head? = some stageModule
  /-- The set holds every name once. -/
  once : s.current.names.Nodup
  /-- The statements of a type run on a request for an instance, if the entity is there.  They decide the answer. -/
  statements : ∀ e type, s.stage.world.contains e = true →
    let made := type.program.instantiate s.whole
    (s.stage.addBehaviour s.current e type).printed = made.printed ∧
    (s.stage.addBehaviour s.current e type).result =
      match made.result with
      | .ok _ => .ok ⟨e, s.stage.nextInstance⟩
      | .error fault => .error (.refused e type.name fault.message)
  /-- Without the entity, nothing runs. -/
  nothing : ∀ e type, s.stage.world.contains e = false → (s.stage.addBehaviour s.current e type).printed = []
  /-- The hooks that run in a tick are those of its calls. -/
  hooks : ∀ dt, ∀ c ∈ s.stage.calls s.current dt, c.engine = s.whole
  account : ∀ dt, HookCall.Account (s.stage.calls s.current dt) (s.stage.tick s.current dt)

theorem engine_of_mem_calls {w : World} {engine : Engine} {dt : Float32} {c : HookCall}
    (hc : c ∈ w.calls engine dt) : c.engine = engine := by
  obtain ⟨b, -, hb⟩ := List.mem_flatMap.1 hc
  obtain ⟨i, -, hi⟩ := List.mem_flatMap.1 hb
  unfold Instance.calls at hi
  split at hi
  · rw [List.mem_singleton.1 hi]
    rfl
  · rcases List.mem_pair.1 hi with rfl | rfl <;> rfl

/-- Whoever adds modules to which sets and when, and whichever set the stage is told to follow how often: what it has
    installed since it was last told is the set as it is by now, in its order and each module once, except what bears
    the name of its own. -/
theorem scripts_run_against_whole_set (moves : List Move) : Whole (run {} moves) := by
  have h : Settled (run {} moves) := settled_start.run moves
  generalize run {} moves = s at h ⊢
  have hengine : (s.stage.sync s.current).engine = s.whole := h.supplied.engine_sync
  exact
    { own := h.own
      once := h.nodup_current
      statements := by
        intro e type hc
        unfold Stage.addBehaviour
        rw [if_pos hc]
        dsimp only
        rw [hengine, Stage.nextInstance_sync]
        split <;> simp [*]
      nothing := by
        intro e type hc
        simp [Stage.addBehaviour, hc]
      hooks := fun dt c hc => (engine_of_mem_calls hc).trans hengine
      account := s.stage.account s.current }

end ModuleSharing

end HotReload
