import HotReload.Proofs.HostedScripts.Correspondence

/-! # Who is kept through reloads

    A script that is reloaded keeps the entities that it knows, whether they are attached
    or suspended, with one exception: if the source compiles and the statements of the
    new type then fail on the stage, the script drops every entity.  It does not suspend
    them, as it does after any other failure, so none of them comes back when the
    source is mended.

    Whether statements fail depends on the type and on the modules of the stage alone,
    never on the entity.  So a reload loses all live entities or none. -/

namespace HotReload

/-! ## Section 1 - what a stage accepts -/

/-- Whether the statements of a type run to their end on the stage of a workspace. -/
def Workspace.runs (w : Workspace Stage) (type : BehaviourType) : Bool :=
  (type.program.instantiate (w.host.sync w.context.modules).engine).result.isOk

namespace Stage

/-- Whether an entity is alive or not lasts, whatever instances are made or removed. -/
theorem lasting_contains (e : Entity) {alive : Bool} :
    Script.Lasting fun s : Stage => s.world.Sound ∧ s.world.contains e = alive where
  add := by
    intro s modules e' type ⟨hsound, hc⟩
    exact ⟨sound_addBehaviour hsound modules e' type,
      (contains_addBehaviour hsound modules e' type e).trans hc⟩
  destroy := by
    intro s r ⟨hsound, hc⟩
    exact ⟨sound_destroyBehaviour hsound r, (s.contains_destroyBehaviour r e).trans hc⟩

end Stage

namespace Workspace
variable {w : Workspace Stage}

theorem isOk_addBehaviour (w : Workspace Stage) (e : Entity) (type : BehaviourType) :
    (w.addBehaviour e type).2.isOk = (w.host.world.contains e && w.runs type) := by
  show (w.host.addBehaviour w.context.modules e type).result.isOk = _
  unfold runs
  rcases w.host.addBehaviour_cases w.context.modules e type with ⟨hc, heq⟩ | ⟨hc, fault, printed, hr, heq⟩ |
    ⟨hc, fields, printed, hr, heq⟩ <;> rw [heq, hc]
  · rfl
  · rw [hr]
    rfl
  · rw [hr]
    rfl

theorem runs_addBehaviour (w : Workspace Stage) (e : Entity) (type type' : BehaviourType) :
    (w.addBehaviour e type).1.runs type' = w.runs type' := by
  unfold runs
  rw [context_addBehaviour]
  show (type'.program.instantiate
    ((w.host.addBehaviour w.context.modules e type).host.sync w.context.modules).engine).result.isOk = _
  rw [Stage.engine_addBehaviour]

/-- A live entity is accepted for a type whose statements run, and refused for any other. -/
theorem mem_accepted_iff {e : Entity} (h : w.host.world.Sound ∧ w.host.world.contains e = true)
    (type : BehaviourType) (es : List Entity) :
    e ∈ w.accepted type es ↔ e ∈ es ∧ w.runs type = true := by
  -- a request changes neither the verdict on the type nor the life of the entity
  induction es generalizing w with
  | nil => simp [accepted]
  | cons e' es ih =>
    have hnext := ih ((Stage.lasting_contains e).addBehaviour h e' type)
    rw [runs_addBehaviour] at hnext
    rw [accepted_cons, isOk_addBehaviour]
    by_cases hee : e = e'
    · subst hee
      rw [h.2, Bool.true_and]
      cases hr : w.runs type with
      | true => simp
      | false => simp [hr] at hnext ⊢; exact hnext
    · split
      · simp [hee, hnext]
      · simp [hee, hnext]

end Workspace

/-! ## Section 2 - reloads that are refused -/

namespace Script

/-- Whether a source has compiled to a type whose statements then fail on the stage. -/
def Prepared.faulty : Prepared Stage → Bool
  | .compiled w type _ => !w.runs type
  | _ => false

/-- Whether a call reloads the script with such a source. -/
def refused (w : Workspace Stage) (s : Script) : Call → Bool
  | .recompile => (s.prepare w).faulty
  | .update => !s.discarded && s.signal.raised && (s.answered.prepare w).faulty
  | _ => false

/-- Whether a call has nothing to say about an entity of its own. -/
def Call.leaves (e : Entity) : Call → Bool
  | .attach e' | .detach e' => decide (e' ≠ e)
  | .detachAll => false
  | _ => true

variable {w : Workspace Stage} {e : Entity}

theorem mem_kept_iff (h : w.host.world.Sound ∧ w.host.world.contains e = true) (s : Script)
    (set : List Entity) : e ∈ s.kept w set ↔ e ∈ set ∧ (s.prepare w).faulty = false := by
  unfold kept
  cases hp : s.prepare w with
  | skipped => simp [Prepared.faulty]
  | failed w' error => simp [Prepared.faulty]
  | compiled w' type source =>
    -- the entity is still alive on the stage that the new type comes to
    have hstrip := (Stage.lasting_contains e).strip h s
    rw [← host_prepare (.inr ⟨type, source, hp⟩)] at hstrip
    rw [Workspace.mem_accepted_iff hstrip]
    simp [Prepared.faulty]

/-- Among the calls that leave a live entity alone, the refused reloads are those that drop it. -/
theorem mem_effect_iff (h : w.host.world.Sound ∧ w.host.world.contains e = true) (s : Script)
    (set : List Entity) {c : Call} (hc : c.leaves e = true) :
    e ∈ s.effect w set c ↔ e ∈ set ∧ s.refused w c = false := by
  cases c with
  | attach e' =>
    have hne : e ≠ e' := (of_decide_eq_true hc).symm
    unfold effect joined
    by_cases hmem : e' ∈ set
    · simp [hmem, refused]
    · cases s.compiled with
      | none => simp [hmem, refused, hne]
      | some type =>
        by_cases hok : (w.addBehaviour e' type).2.isOk = true <;> simp [hmem, refused, hne, hok]
  | detach e' =>
    have hne : e ≠ e' := (of_decide_eq_true hc).symm
    simp [effect, refused, hne]
  | detachAll => cases hc
  | recompile => exact mem_kept_iff h s set
  | update =>
    unfold effect refused
    by_cases hidle : (!s.discarded && s.signal.raised) = true
    · simp only [hidle, if_true, Bool.true_and]
      exact mem_kept_iff h s.answered set
    · simp [hidle]
  | _ => simp [effect, refused]

end Script

/-- Whether an action leaves an entity to a script: it does not remove the entity, and does not attach
    or detach it there. -/
def Action.leaves (k : Nat) (e : Entity) : Action → Bool
  | .despawn e' => decide (e' ≠ e)
  | .call k' called => decide (k' ≠ k) || called.leaves e
  | _ => true

namespace HostedScripts

/-! ## Section 3 - one action -/

/-- Whether a script knows an entity, attached or suspended. -/
def Knows (c : HostedScripts) (k : Nat) (e : Entity) : Prop := ∃ s, c.scripts[k]? = some s ∧ e ∈ s.roster

instance (c : HostedScripts) (k : Nat) (e : Entity) : Decidable (c.Knows k e) :=
  decidable_of_iff ((c.scripts[k]?.any fun s => decide (e ∈ s.roster)) = true)
    (by simp [Knows, Option.any_eq_true])

/-- Whether an action reloads a script with a type whose statements fail on the stage. -/
def refuses (c : HostedScripts) (k : Nat) : Action → Bool
  | .call k' called => decide (k' = k) && c.scripts[k]?.any fun s => s.refused c.workspace called
  | _ => false

/-- Whether none of some actions is such a reload, each in the state that the ones before it make. -/
def neverRefuses (c : HostedScripts) (k : Nat) : List Action → Bool
  | [] => true
  | a :: rest => !c.refuses k a && (c.step a).neverRefuses k rest

variable {c : HostedScripts} {k : Nat} {e : Entity}

/-- Only its own removal ends the life of an entity. -/
theorem alive_step (h : c.Linked) (halive : c.alive e = true) {a : Action} (ha : a.leaves k e = true) :
    (c.step a).alive e = true := by
  cases a with
  | edit files => exact halive
  | lend context => exact halive
  | delay lapse => exact halive
  | load identity p options =>
    have hhost := Script.host_load c.workspace identity p options
    have hstage : (c.step (.load identity p options)).stage = c.stage := by
      cases hload : Script.load c.workspace identity p options with
      | mk w result =>
        rw [hload] at hhost
        cases result with
        | error error => rw [step_load_of_error hload]; exact hhost
        | ok s => rw [step_load_of_ok hload]; exact hhost
    rw [alive, hstage]
    exact halive
  | call k' called =>
    cases hk : c.scripts[k']? with
    | none =>
      rw [step_call_of_none hk]
      exact halive
    | some s =>
      rw [step_call_of_some hk]
      exact ((Stage.lasting_contains e).call (w := c.workspace) ⟨h.matched.sound, halive⟩ s called).2
  | spawn name =>
    show (c.stage.world.spawn (some name) (some [])).1.contains e = true
    rw [World.contains_spawn h.matched.sound, Bool.or_eq_true]
    exact .inr halive
  | despawn e' =>
    have hne : e ≠ e' := (of_decide_eq_true ha).symm
    show (c.stage.world.despawn e').1.contains e = true
    rw [World.contains_despawn h.matched.sound, decide_eq_false hne]
    exact halive
  | tick dt =>
    show (c.stage.tick c.workspace.context.modules dt).value.world.contains e = true
    rw [Stage.world_tick, World.contains_mapBeings (fun b => b.tick_entity _ dt)]
    exact halive
  | share =>
    show (c.stage.follow c.workspace.context.modules).world.contains e = true
    rw [Stage.world_follow]
    exact halive

/-- An action that leaves an entity to a script takes it from the script exactly if it is a refused
    reload, and never gives it to the script. -/
theorem step_knows (h : c.Linked) (halive : c.alive e = true) {s : Script} (hk : c.scripts[k]? = some s)
    {a : Action} (ha : a.leaves k e = true) : ∃ s', (c.step a).scripts[k]? = some s' ∧
      (e ∈ s'.roster ↔ e ∈ s.roster ∧ c.refuses k a = false) := by
  cases a with
  | load identity p options =>
    cases hload : Script.load c.workspace identity p options with
    | mk w result =>
      cases result with
      | error error =>
        rw [step_load_of_error hload]
        exact ⟨s, hk, by simp [refuses]⟩
      | ok t =>
        rw [step_load_of_ok hload]
        obtain ⟨hlt, -⟩ := List.getElem?_eq_some_iff.1 hk
        exact ⟨s, by rw [List.getElem?_append_left hlt, hk], by simp [refuses]⟩
  | call k' called =>
    cases hk' : c.scripts[k']? with
    | none =>
      rw [step_call_of_none hk']
      refine ⟨s, hk, ?_⟩
      have hne : k' ≠ k := by
        rintro rfl
        rw [hk] at hk'
        cases hk'
      simp [refuses, hne]
    | some t =>
      rw [step_call_of_some hk']
      by_cases hkk : k' = k
      · subst hkk
        rw [hk] at hk'
        cases hk'
        obtain ⟨hlt, -⟩ := List.getElem?_eq_some_iff.1 hk
        have hs : s.Settled := h.settled s (List.mem_of_getElem? hk)
        refine ⟨(s.call c.workspace called).2, List.getElem?_set_self hlt, ?_⟩
        rw [hs.roster_call c.workspace called]
        have hcalled : called.leaves e = true := by simpa [Action.leaves] using ha
        rw [Script.mem_effect_iff (w := c.workspace) ⟨h.matched.sound, halive⟩ s s.roster hcalled]
        simp [refuses, hk]
      · refine ⟨s, by rw [List.getElem?_set_ne hkk, hk], ?_⟩
        simp [refuses, hkk]
  | _ => exact ⟨s, hk, by simp [refuses]⟩

/-! ## Section 4 - runs -/

theorem run_knows (h : c.Linked) (halive : c.alive e = true) {s : Script} (hk : c.scripts[k]? = some s)
    {actions : List Action} (hleave : ∀ a ∈ actions, a.leaves k e = true) :
    ((c.run actions).Knows k e ↔ e ∈ s.roster ∧ c.neverRefuses k actions = true) ∧
      (c.run actions).alive e = true := by
  -- that the state is linked and the entity alive is what each step needs of the one before
  induction actions generalizing c s with
  | nil =>
    refine ⟨?_, halive⟩
    simp [Knows, hk, neverRefuses]
  | cons a rest ih =>
    have ha := hleave a (by simp)
    obtain ⟨s', hk', hroster⟩ := step_knows h halive hk ha
    obtain ⟨hknows, hstill⟩ := ih (h.step a) (alive_step h halive ha) hk'
      (fun b hb => hleave b (List.mem_cons_of_mem a hb))
    refine ⟨?_, hstill⟩
    rw [run_cons, hknows, hroster, neverRefuses]
    simp [and_assoc]

/-- A live entity that a script knows carries an instance as soon as the script has a type. -/
theorem Linked.instance_of_known (h : c.Linked) {s : Script} (hk : c.scripts[k]? = some s)
    (hroster : e ∈ s.roster) (halive : c.alive e = true) {type : BehaviourType}
    (hc : s.compiled = some type) : ∃ i, c.ownedOn s e = [i] ∧ i.type = type := by
  have hs : s ∈ c.scripts := List.mem_of_getElem? hk
  rw [(h.settled s hs).roster_of_some hc] at hroster
  obtain ⟨a, ha, hae⟩ := List.mem_map.1 hroster
  subst hae
  obtain ⟨i, hi, htype⟩ := h.corresponds.attached s hs a ha halive
  have hmem : i ∈ (c.instancesOn a.entity).filter fun i => i.id = a.ref.id := by simp [hi]
  obtain ⟨hon, hid⟩ := List.mem_filter.1 hmem
  exact ⟨i, h.ownedOn_eq_singleton hs ha hon (of_decide_eq_true hid), Option.some.inj (htype.symm.trans hc)⟩

/-- An entity that is alive and left to a script that knows it is still known to the script at the end of
    a run exactly if none of the reloads on the way was refused; and if it is, it carries exactly
    one instance, of the present type, whenever the script has a type. -/
theorem knows_iff_neverRefuses (w : Workspace Stage) (before actions : List Action) (k : Nat) (e : Entity)
    (hknown : ((fresh w).run before).Knows k e) (halive : ((fresh w).run before).alive e = true)
    (hleave : ∀ a ∈ actions, a.leaves k e = true) :
    (((fresh w).run (before ++ actions)).Knows k e ↔
      ((fresh w).run before).neverRefuses k actions = true) ∧
    (((fresh w).run (before ++ actions)).Knows k e → ∀ s type,
      ((fresh w).run (before ++ actions)).scripts[k]? = some s → s.compiled = some type →
      ∃ i, ((fresh w).run (before ++ actions)).ownedOn s e = [i] ∧ i.type = type) := by
  have h : ((fresh w).run before).Linked := (linked_fresh w).run before
  -- the entity is in the roster to begin with, so only the reloads on the way decide
  obtain ⟨s, hk, hroster⟩ := hknown
  obtain ⟨hknows, hstill⟩ := run_knows h halive hk hleave
  rw [run_append]
  refine ⟨by simpa [hroster] using hknows, ?_⟩
  rintro ⟨t, ht, hmem⟩ t' type ht' hc
  rw [ht] at ht'
  cases ht'
  exact (h.run actions).instance_of_known ht hmem hstill hc

/-! ### A source that compiles and fails on the stage -/

/-- The source of a type with a field that cannot be initialized. -/
def faultySource : String := "class Spin { let x = f(); }"

def faultyFiles : Files := { entries := [(["spin"], .file faultySource.toUTF8)] }

/-- What leads to a script with one entity. -/
def spinActions : List Action :=
  [.load "spin" ⟨"/spin"⟩ { hotReload := false }, .spawn "top", .call 0 (.attach ⟨0, 1⟩)]

/-- What they lead to. -/
def spinHosted : HostedScripts :=
  HostedScripts.run ⟨Script.spinLoaded.1, [Script.spinScript]⟩ [.spawn "top", .call 0 (.attach ⟨0, 1⟩)]

theorem run_spin : (fresh Script.spinWorkspace).run spinActions = spinHosted := by
  rw [spinActions, run_cons, step_load_of_ok (c := fresh Script.spinWorkspace) Script.load_spin]
  rfl

/-- The script in it. -/
def spinAttached : Script := spinHosted.scripts[0]?.getD default

theorem path_spinAttached : spinAttached.path = ⟨"/spin"⟩ := by decide +kernel

/-- Reloading it is decided by the text that the source has become. -/
theorem refuses_recompile {files : Files} {source : String}
    (hfiles : files.readText ⟨"/spin"⟩ = .ok source) :
    (spinHosted.step (.edit files)).refuses 0 (.call 0 .recompile) =
      (spinAttached.prepareFrom { spinHosted.workspace with files := files } (.ok source)).faulty := by
  have hread : Workspace.readSource { spinHosted.workspace with files := files } spinAttached.path =
      .ok source := by
    rw [path_spinAttached, Workspace.readSource]
    simp only [hfiles]
  rw [← hread]
  rfl

theorem knows_spin : spinHosted.Knows 0 ⟨0, 1⟩ ∧ spinHosted.alive ⟨0, 1⟩ = true := by decide +kernel

/-- A run to which this applies: the entity is kept when the source is compiled once more. -/
theorem knows_after_recompile :
    ((fresh Script.spinWorkspace).run
      (spinActions ++ [.edit Script.spinWorkspace.files, .call 0 .recompile])).Knows 0 ⟨0, 1⟩ := by
  obtain ⟨hknown, halive⟩ := knows_spin
  have hrun := knows_iff_neverRefuses Script.spinWorkspace spinActions
    [.edit Script.spinWorkspace.files, .call 0 .recompile] 0 ⟨0, 1⟩ (by rwa [run_spin]) (by rwa [run_spin])
    (by decide)
  refine hrun.1.2 ?_
  have hfiles : Script.spinWorkspace.files.readText ⟨"/spin"⟩ = .ok Script.spinSource :=
    Script.readText_spin rfl
  have hrefuses := refuses_recompile hfiles
  rw [run_spin, neverRefuses, neverRefuses, hrefuses]
  decide +kernel

/-- Not every entity is kept.  Once a source compiles whose statements fail on the stage, the entity is
    lost, although it is alive and nobody has detached it, and mending the source does not bring it
    back. -/
theorem reloads_lose_entity : ¬ ∀ (w : Workspace Stage) (before actions : List Action) (k : Nat) (e : Entity),
    ((fresh w).run before).Knows k e → ((fresh w).run before).alive e = true →
    (∀ a ∈ actions, (∃ files, a = .edit files) ∨ a = .call k .update ∨ a = .call k .recompile) →
    ((fresh w).run (before ++ actions)).Knows k e := by
  intro hkept
  obtain ⟨hknown, halive⟩ := knows_spin
  have hlinked : spinHosted.Linked := run_spin ▸ (linked_fresh Script.spinWorkspace).run spinActions
  have hfiles : faultyFiles.readText ⟨"/spin"⟩ = .ok faultySource :=
    Script.readText_spin rfl
  have hrefuses : (spinHosted.step (.edit faultyFiles)).refuses 0 (.call 0 .recompile) = true := by
    rw [refuses_recompile hfiles]
    decide +kernel
  -- the second source is the bad one, and the third is the first one again
  let actions : List Action := [.edit faultyFiles, .call 0 .recompile,
    .edit Script.spinWorkspace.files, .call 0 .recompile]
  have hknows : (spinHosted.run actions).Knows 0 ⟨0, 1⟩ := by
    rw [← run_spin, ← run_append]
    refine hkept _ spinActions actions 0 ⟨0, 1⟩ (by rwa [run_spin]) (by rwa [run_spin]) ?_
    simp [actions]
  obtain ⟨s, hs, hroster⟩ := hknown
  -- that the entity is known at the end would mean that no reload was refused
  have hnever := ((run_knows hlinked halive hs (by decide)).1.1 hknows).2
  rw [neverRefuses, neverRefuses, hrefuses] at hnever
  simp at hnever

end HostedScripts

end HotReload
