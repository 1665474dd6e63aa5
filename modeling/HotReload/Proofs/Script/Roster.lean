import HotReload.Proofs.Script.Calls
import HotReload.Proofs.Lists
import HotReload.Proofs.Storage.RootFolder
import Mathlib.Data.List.Nodup

/-! # The roster as an ordered set

    The entities of a script are kept in two lists, and the calls of a script move them
    between these lists, one by one or all at once.  Seen together, as the *roster*, the
    two lists are one ordered set, on which most calls do nothing at all.

    What carries the argument is that a script is never in between: with a type all
    its entities are attached, and without one all of them are suspended. -/

namespace HotReload

namespace Script

variable {η : Type}

/-! ## Section 1 - the invariant -/

/-- No entity is listed twice, and which of the two lists is in use depends on the type alone. -/
structure Settled (s : Script) : Prop where
  nodup : s.roster.Nodup
  /-- With a type nobody waits. -/
  attached : s.compiled.isSome → s.suspended = []
  /-- Without a type everybody waits. -/
  waiting : s.compiled = none → s.attachments = []

namespace Settled
variable {s : Script}

theorem roster_of_some (h : s.Settled) {type : BehaviourType} (hc : s.compiled = some type) :
    s.roster = s.attached := by
  simp [roster, h.attached (by simp [hc])]

theorem roster_of_none (h : s.Settled) (hc : s.compiled = none) : s.roster = s.suspended := by
  simp [roster, Script.attached, h.waiting hc]

theorem nodup_attached (h : s.Settled) : s.attached.Nodup := (List.nodup_append.1 h.nodup).1

/-- Only a script with a type has attachments. -/
theorem compiled_of_mem (h : s.Settled) {a : Attachment} (ha : a ∈ s.attachments) :
    ∃ type, s.compiled = some type := by
  rw [← Option.isSome_iff_exists]
  by_contra hnone
  rw [h.waiting (by simpa using hnone)] at ha
  cases ha

/-- A script with a type stays as it should be as long as its attached entities differ. -/
theorem of_some {type : BehaviourType} (hc : s.compiled = some type) (hs : s.suspended = [])
    (hnd : s.attached.Nodup) : s.Settled where
  nodup := by simpa [roster, hs] using hnd
  attached := fun _ => hs
  waiting := by simp [hc]

/-- Without a type it is the waiting entities that have to differ. -/
theorem of_none (hc : s.compiled = none) (ha : s.attachments = []) (hnd : s.suspended.Nodup) :
    s.Settled where
  nodup := by simpa [roster, Script.attached, ha] using hnd
  attached := by simp [hc]
  waiting := fun _ => ha

/-- The invariant reads three fields. -/
theorem congr {s' : Script} (h : s.Settled) (hc : s'.compiled = s.compiled)
    (ha : s'.attachments = s.attachments) (hs : s'.suspended = s.suspended) : s'.Settled where
  nodup := by simpa [roster, Script.attached, ha, hs] using h.nodup
  attached := by rw [hc, hs]; exact h.attached
  waiting := by rw [hc, ha]; exact h.waiting

theorem withoutWaiting (h : s.Settled) : Settled { s with suspended := [] } where
  nodup := by
    rw [roster, List.append_nil]
    exact h.nodup_attached
  attached := fun _ => rfl
  waiting := h.waiting

end Settled

/-- What a script is made of when it has been loaded. -/
theorem load_made {w : Workspace η} {identity : String} {p : Path} {options : ScriptOptions}
    {s : Script} (h : (load w identity p options).2 = .ok s) :
    ∃ type source elapsed watch, s = push
      { identity, path := p, options, compiled := some type, source := some source, watch }
      (.compiled identity type.name 1 elapsed) := by
  unfold load at h
  split at h
  · cases h
  · next source _ =>
    unfold ofSource at h
    split at h
    · cases h
    · next w' script hsource =>
      split at hsource
      · cases hsource
      · next w'' extracted _ =>
        simp only [Prod.mk.injEq, Except.ok.injEq] at hsource
        obtain ⟨-, rfl⟩ := hsource
        simp only [Except.ok.injEq] at h
        -- the source may be watched or not
        rcases startWatch_cases w' (push _ _) with hw | ⟨watch, hw⟩ | ⟨line, hw⟩ <;>
          · rw [hw] at h
            subst h
            exact ⟨extracted.behaviour, source, w''.lapse, _, rfl⟩

/-- A script that has just been loaded has a type and no entities. -/
theorem load_fields {w : Workspace η} {identity : String} {p : Path} {options : ScriptOptions}
    {s : Script} (h : (load w identity p options).2 = .ok s) :
    (∃ type, s.compiled = some type) ∧ s.attachments = [] ∧ s.suspended = [] := by
  obtain ⟨type, source, elapsed, watch, rfl⟩ := load_made h
  exact ⟨⟨type, rfl⟩, rfl, rfl⟩

/-! ## Section 2 - what reloads do to the roster -/

section reloads
variable [Host η]

/-- The entities that a new type is given to are those that the host accepts. -/
theorem readd_fields (w : Workspace η) (s : Script) (type : BehaviourType) (es : List Entity) :
    (readd w s type es).2.attached = s.attached ++ w.accepted type es ∧
    (readd w s type es).2.suspended = s.suspended ∧
    (readd w s type es).2.compiled = s.compiled := by
  -- both recursions go through the entities with the same workspace, except for the log
  induction es generalizing w s with
  | nil => simp [readd, Workspace.accepted]
  | cons e es ih =>
    rw [Workspace.accepted_cons]
    cases hr : (w.addBehaviour e type).2 with
    | ok ref =>
      rw [readd_cons_of_ok hr]
      obtain ⟨hatt, hsus, hcomp⟩ := ih (w.addBehaviour e type).1 (s.link e ref)
      refine ⟨?_, hsus, hcomp⟩
      rw [hatt, attached_link, List.append_assoc]
      rfl
    | error error =>
      obtain ⟨line, heq⟩ := readd_cons_of_error hr s es
      rw [heq]
      obtain ⟨hatt, hsus, hcomp⟩ := ih ((w.addBehaviour e type).1.say line) s
      refine ⟨?_, hsus, hcomp⟩
      rw [hatt, Workspace.accepted_say]
      rfl

theorem renew_fields (w : Workspace η) (s : Script) (type : BehaviourType) (source : String)
    (es : List Entity) :
    (renew w s type source es).2.attached = s.attached ++ w.accepted type es ∧
    (renew w s type source es).2.suspended = s.suspended ∧
    (renew w s type source es).2.compiled = some type :=
  readd_fields w { s with generation := s.generation + 1, compiled := some type, source := some source }
    type es

/-- What becomes of an ordered set of entities when the script is reloaded. -/
def kept (w : Workspace η) (s : Script) (set : List Entity) : List Entity :=
  match s.prepare w with
  | .compiled w' type _ => w'.accepted type set
  | _ => set

theorem kept_sublist (w : Workspace η) (s : Script) (set : List Entity) :
    (s.kept w set).Sublist set := by
  unfold kept
  split
  · exact Workspace.accepted_sublist _ _ _
  · exact List.Sublist.refl _

theorem roster_recompile (w : Workspace η) (s : Script) :
    (recompile w s).2.1.roster = s.kept w s.roster := by
  rw [recompile_eq]
  unfold kept
  cases s.prepare w with
  | skipped => simp
  | failed w' error => simp [suspendAll, strip, roster, attached]
  | compiled w' type source =>
    obtain ⟨hatt, hsus, -⟩ := renew_fields w' (strip w s).2 type source s.roster
    show (renew w' (strip w s).2 type source s.roster).2.roster = w'.accepted type s.roster
    rw [roster, hatt, hsus]
    simp [strip, attached]

theorem Settled.recompile {s : Script} (h : s.Settled) (w : Workspace η) :
    (recompile w s).2.1.Settled := by
  have hkept : (s.kept w s.roster).Nodup := h.nodup.sublist (kept_sublist w s s.roster)
  rw [← roster_recompile w s] at hkept
  rw [recompile_eq] at hkept ⊢
  -- after a failure all of the roster waits, after a success all of what is left is attached
  cases hp : s.prepare w with
  | skipped => exact h.congr rfl rfl rfl
  | failed w' error => exact .of_none rfl rfl h.nodup
  | compiled w' type source =>
    rw [hp] at hkept
    obtain ⟨-, hsus, hcomp⟩ := renew_fields w' (strip w s).2 type source s.roster
    have hnone : (renew w' (strip w s).2 type source s.roster).2.suspended = [] := hsus
    have hnd : (renew w' (strip w s).2 type source s.roster).2.roster.Nodup := hkept
    rw [roster, hnone, List.append_nil] at hnd
    exact .of_some hcomp hnone hnd

/-- A reload is skipped, fails, or goes on to give the entities a new type. -/
theorem prepare_cases (w : Workspace η) (s : Script) :
    (s.isUnchanged (w.readSource s.path) = true ∧ s.prepare w = .skipped ∧
      (recompile w s).2.2 = .ok ()) ∨
    (s.isUnchanged (w.readSource s.path) = false ∧ ∃ w' error, s.prepare w = .failed w' error ∧
      (recompile w s).2.2 = .error error) ∨
    (s.isUnchanged (w.readSource s.path) = false ∧ ∃ w' type source,
      s.prepare w = .compiled w' type source ∧ (recompile w s).2.2 = .ok () ∧
      (recompile w s).2.1.compiled = some type) := by
  have hskip : s.prepare w = .skipped ↔ s.isUnchanged (w.readSource s.path) = true := by
    unfold prepare prepareFrom
    constructor
    · intro h
      by_contra hne
      rw [if_neg hne] at h
      split at h
      · cases h
      · split at h <;> cases h
    · intro h
      rw [if_pos h]
  rw [recompile_eq]
  cases hp : s.prepare w with
  | skipped => exact .inl ⟨hskip.1 hp, rfl, rfl⟩
  | failed w' error =>
    refine .inr (.inl ⟨?_, w', error, rfl, rfl⟩)
    simpa [hp] using mt hskip.2
  | compiled w' type source =>
    refine .inr (.inr ⟨?_, w', type, source, rfl, rfl, ?_⟩)
    · simpa [hp] using mt hskip.2
    · exact (renew_fields w' (strip w s).2 type source s.roster).2.2

section outcomes
variable {w : Workspace η} {s : Script}

theorem kept_of_unchanged (h : s.isUnchanged (w.readSource s.path) = true) (set : List Entity) :
    s.kept w set = set := by
  rcases prepare_cases w s with ⟨-, hp, -⟩ | ⟨hchanged, -⟩ | ⟨hchanged, -⟩
  · rw [kept, hp]
  · rw [h] at hchanged
    cases hchanged
  · rw [h] at hchanged
    cases hchanged

theorem kept_of_failed {error : ScriptError} (h : (recompile w s).2.2 = .error error)
    (set : List Entity) : s.kept w set = set := by
  rcases prepare_cases w s with ⟨-, hp, -⟩ | ⟨-, w', error', hp, -⟩ | ⟨-, w', type, source, -, hok, -⟩
  · rw [kept, hp]
  · rw [kept, hp]
  · rw [hok] at h
    cases h

theorem prepare_of_ok (h : (recompile w s).2.2 = .ok ())
    (hchanged : s.isUnchanged (w.readSource s.path) = false) :
    ∃ w' type source, s.prepare w = .compiled w' type source ∧
      (recompile w s).2.1.compiled = some type := by
  rcases prepare_cases w s with ⟨hsame, -⟩ | ⟨-, w', error, -, hfail⟩ | ⟨-, w', type, source, hp, -, hc⟩
  · rw [hsame] at hchanged
    cases hchanged
  · rw [hfail] at h
    cases h
  · exact ⟨w', type, source, hp, hc⟩

end outcomes

end reloads

/-! ## Section 3 - what the other calls do to the roster -/

section calls
variable [Host η] {s : Script}

theorem Settled.attach (h : s.Settled) (w : Workspace η) (e : Entity) :
    (attach w s e).2.1.Settled := by
  rcases attach_cases w s e with ⟨-, heq⟩ | ⟨-, hc, heq⟩ | ⟨hnew, type, ref, hc, -, heq⟩ |
    ⟨-, type, error, line, -, -, heq⟩ <;> rw [heq]
  · exact h
  · -- waiting twice is waiting once
    by_cases hmem : e ∈ s.suspended
    · simpa [hmem] using h
    · have hnd : s.suspended.Nodup := h.roster_of_none hc ▸ h.nodup
      simp only [hmem, if_false]
      refine .of_none hc (h.waiting hc) ?_
      exact hnd.append (List.nodup_singleton e) (by simpa using hmem)
  · refine .of_some hc (h.attached (by simp [hc])) ?_
    rw [attached_push, attached_link]
    exact h.nodup_attached.append (List.nodup_singleton e) (by simpa using hnew)
  · exact h

/-- Nothing is filtered out of a list that an entity is not in. -/
theorem filter_entity {l : List Attachment} {e : Entity} (h : e ∉ l.map Attachment.entity) :
    (l.map Attachment.entity).filter (· ≠ e) = l.map Attachment.entity := by
  rw [List.filter_eq_self]
  intro b hb
  simpa using fun heb : b = e => h (heb ▸ hb)

theorem Settled.detach (h : s.Settled) (w : Workspace η) (e : Entity) :
    (detach w s e).2.1.roster = s.roster.filter (· ≠ e) ∧ (detach w s e).2.1.Settled ∧
      (detach w s e).2.1.compiled = s.compiled := by
  have hroster : (Script.detach w s e).2.1.roster = s.roster.filter (· ≠ e) := by
    rcases detach_cases w s e with ⟨hfree, heq⟩ | ⟨front, a, back, hsplit, hfront, ha, heq⟩ <;>
      rw [heq]
    · rw [roster, roster, List.filter_append, Script.attached, Script.attached, filter_entity hfree]
      rfl
    · -- the attachment that goes is the only one on its entity
      have hback : e ∉ back.map Attachment.entity := by
        have hnd := h.nodup_attached
        rw [Script.attached, hsplit, List.map_append, List.map_cons, ha] at hnd
        exact (List.nodup_cons.1 (List.nodup_append.1 hnd).2.1).1
      rw [roster_push, roster, roster, List.filter_append, Script.attached, Script.attached, hsplit]
      simp only [forget, List.map_append, List.map_cons, List.filter_append, filter_entity hfront]
      rw [List.filter_cons_of_neg (by simpa using ha), filter_entity hback]
  have hnd : (Script.detach w s e).2.1.roster.Nodup := by
    rw [hroster]
    exact h.nodup.filter _
  refine ⟨hroster, ⟨hnd, ?_, ?_⟩, ?_⟩
  -- the type stays, so the list that is not in use stays empty
  all_goals
    rcases detach_cases w s e with ⟨-, heq⟩ | ⟨front, a, back, hsplit, -, -, heq⟩ <;> rw [heq]
  · intro hc
    simp [forget, h.attached hc]
  · intro hc
    simp [forget, h.attached hc]
  · exact fun hc => h.waiting hc
  · intro hc
    obtain ⟨type, htype⟩ := h.compiled_of_mem (a := a) (by simp [hsplit])
    have hnone : some type = none := htype.symm.trans hc
    cases hnone
  · rfl
  · rfl

theorem Settled.detachEach (h : s.Settled) (w : Workspace η) (es : List Entity) :
    (detachEach w s es).2.roster = s.roster.filter (· ∉ es) ∧ (detachEach w s es).2.Settled := by
  -- the entities that are filtered out one by one are filtered out all at once
  induction es generalizing w s with
  | nil => exact ⟨by simp [Script.detachEach], h⟩
  | cons e es ih =>
    unfold Script.detachEach
    obtain ⟨hroster, hsettled, -⟩ := h.detach w e
    obtain ⟨hrest, hkept⟩ := ih hsettled (Script.detach w s e).1
    refine ⟨?_, hkept⟩
    rw [hrest, hroster, List.filter_filter]
    apply List.filter_congr
    intro b _
    simp [Bool.and_comm]

theorem attach_refused {w : Workspace η} {e : Entity} {error : HostError}
    (h : (attach w s e).2.2 = .error error) : (attach w s e).2.1 = s := by
  rcases attach_cases w s e with ⟨-, heq⟩ | ⟨-, -, heq⟩ | ⟨-, _, _, -, -, heq⟩ |
    ⟨-, _, _, _, -, -, heq⟩
  · rw [heq]
  · rw [heq] at h
    cases h
  · rw [heq] at h
    cases h
  · rw [heq]

theorem Settled.detachAll (h : s.Settled) (w : Workspace η) :
    (detachAll w s).2.1.roster = [] ∧ (detachAll w s).2.1.Settled := by
  -- the waiting entities are forgotten first, so the attached ones are all there is
  obtain ⟨hroster, hsettled⟩ := h.withoutWaiting.detachEach w s.attached
  refine ⟨?_, hsettled⟩
  show (Script.detachEach w { s with suspended := [] } s.attached).2.roster = []
  rw [hroster, List.filter_eq_nil_iff]
  intro e he
  simpa [roster, Script.attached] using he

/-- Nobody waits while there is a type, so there is never anyone to attach again. -/
theorem Settled.reattach_eq (h : s.Settled) (w : Workspace η) : reattach w s = (w, s, 0) := by
  unfold reattach
  by_cases hc : s.compiled.isNone = true
  · rw [if_pos hc]
  · have hs : s.suspended = [] := h.attached (Option.isSome_iff_ne_none.2 (by simpa using hc))
    have hsame : { s with suspended := [] } = s := by rw [← hs]
    rw [if_neg hc, hs, hsame]
    rfl

end calls

/-! ## Section 4 - the simulation -/

section simulation
variable [Host η]

/-- What becomes of an ordered set when an entity is attached: it comes to its end, unless it is in it
    or the host refuses it. -/
def joined (w : Workspace η) (s : Script) (set : List Entity) (e : Entity) : List Entity :=
  if e ∈ set then set
  else
    match s.compiled with
    | none => set ++ [e]
    | some type => if (w.addBehaviour e type).2.isOk then set ++ [e] else set

/-- What a call does to an ordered set of entities.  The script is consulted for no more than
    whether there is a type and whether a change waits, the workspace for what the host and the
    compiler say. -/
def effect (w : Workspace η) (s : Script) (set : List Entity) : Call → List Entity
  | .attach e => s.joined w set e
  | .detach e => set.filter (· ≠ e)
  | .detachAll => []
  | .recompile => s.kept w set
  | .update => if !s.discarded && s.signal.raised then s.answered.kept w set else set
  | .reattach | .requestReload | .discard | .resume => set

theorem Settled.roster_attach {s : Script} (h : s.Settled) (w : Workspace η) (e : Entity) :
    (Script.attach w s e).2.1.roster = s.joined w s.roster e := by
  unfold joined
  rcases attach_cases w s e with ⟨hmem, heq⟩ | ⟨-, hc, heq⟩ | ⟨hnew, type, ref, hc, hadd, heq⟩ |
    ⟨hnew, type, error, line, hc, hadd, heq⟩ <;> rw [heq]
  · have hroster : e ∈ s.roster := List.mem_append_left _ hmem
    rw [if_pos hroster]
  · rw [h.roster_of_none hc, hc]
    by_cases hmem : e ∈ s.suspended
    · simp [hmem, h.roster_of_none hc]
    · simp [hmem, roster, Script.attached, h.waiting hc]
  · rw [h.roster_of_some hc, if_neg hnew, hc]
    have hs : (s.link e ref).suspended = [] := h.attached (by simp [hc])
    have hok : (w.addBehaviour e type).2.isOk = true := by rw [hadd]; rfl
    simp only [hok, if_true, roster_push]
    rw [roster, hs, attached_link, List.append_nil]
  · rw [h.roster_of_some hc, if_neg hnew, hc]
    have hok : (w.addBehaviour e type).2.isOk = false := by rw [hadd]; rfl
    simp only [hok, Bool.false_eq_true, if_false]

/-- One call keeps a script settled. -/
theorem Settled.call {s : Script} (h : s.Settled) (w : Workspace η) (c : Call) :
    (s.call w c).2.Settled := by
  cases c with
  | attach e => exact h.attach w e
  | detach e => exact (h.detach w e).2.1
  | detachAll => exact (h.detachAll w).2
  | reattach =>
    show (Script.reattach w s).2.1.Settled
    rw [h.reattach_eq w]
    exact h
  | requestReload => exact h.congr rfl rfl rfl
  | update =>
    show (Script.update w s).2.1.Settled
    rcases update_cases w s with ⟨-, -, heq⟩ | ⟨-, heq⟩ <;> rw [heq]
    · have hanswered : s.answered.Settled := h.congr rfl rfl rfl
      exact hanswered.recompile w
    · exact h
  | recompile => exact h.recompile w
  | discard =>
    obtain ⟨hc, ha, hs⟩ := discard_fields s
    exact h.congr hc ha hs
  | resume =>
    obtain ⟨-, -, hc, ha, hs⟩ := resume_fields w s
    exact h.congr hc ha hs

/-- One call acts on the roster as it acts on an ordered set. -/
theorem Settled.roster_call {s : Script} (h : s.Settled) (w : Workspace η) (c : Call) :
    (s.call w c).2.roster = s.effect w s.roster c := by
  cases c with
  | attach e => exact h.roster_attach w e
  | detach e => exact (h.detach w e).1
  | detachAll => exact (h.detachAll w).1
  | reattach =>
    show (Script.reattach w s).2.1.roster = s.roster
    rw [h.reattach_eq w]
  | requestReload => rfl
  | update =>
    show (Script.update w s).2.1.roster = _
    unfold effect
    rcases update_cases w s with ⟨hd, hr, heq⟩ | ⟨hidle, heq⟩ <;> rw [heq]
    · simp only [hd, hr, Bool.not_false, Bool.and_self, if_true]
      exact roster_recompile w s.answered
    · rw [if_neg (by rcases hidle with hd | hr <;> simp [*])]
  | recompile => exact roster_recompile w s
  | discard =>
    obtain ⟨-, ha, hs⟩ := discard_fields s
    show s.discard.roster = s.roster
    rw [roster, roster, Script.attached, Script.attached, ha, hs]
  | resume =>
    obtain ⟨-, -, -, ha, hs⟩ := resume_fields w s
    show (Script.resume w s).2.roster = s.roster
    rw [roster, roster, Script.attached, Script.attached, ha, hs]

end simulation

/-- A script that has come about by loading and by calls, and the ordered set that goes through the
    same calls from the start.  Every call may meet other files, another compiler and another host. -/
inductive Follows : Script → List Entity → Prop where
  | load {η : Type} (w : Workspace η) (identity : String) (p : Path) (options : ScriptOptions)
    {s : Script} (h : (load w identity p options).2 = .ok s) : Follows s []
  | call {η : Type} [Host η] (w : Workspace η) {s : Script} {set : List Entity} (h : Follows s set)
    (c : Call) : Follows (s.call w c).2 (s.effect w set c)

theorem Follows.settled {s : Script} {set : List Entity} (h : Follows s set) :
    s.Settled ∧ s.roster = set := by
  -- the two go together: a call acts on the roster as on a set only if the script is settled
  induction h with
  | load w identity p options h =>
    obtain ⟨⟨type, hc⟩, ha, hs⟩ := load_fields h
    exact ⟨.of_some hc hs (by simp [attached, ha]), by simp [roster, attached, ha, hs]⟩
  | call w h c ih =>
    obtain ⟨hsettled, rfl⟩ := ih
    exact ⟨hsettled.call w c, hsettled.roster_call w c⟩

/-! ## Section 5 - the main theorem -/

/-- At any time the roster of a script is the ordered set that has gone through the same calls.  All of
    it is attached while there is a type, and all of it is suspended while there is none.  So there is
    never anyone to reattach; a host that refuses an entity leaves the script as it was; a reload that
    fails or has nothing to do leaves the set as it was; and one that succeeds leaves the entities
    that the host accepts, in their order. -/
theorem roster_refines_ordered_set {s : Script} {set : List Entity} (h : Follows s set) :
    s.roster = set ∧ set.Nodup ∧
    (s.compiled.isSome → s.attached = set ∧ s.suspended = []) ∧
    (s.compiled = none → s.attachments = [] ∧ s.suspended = set) ∧
    ∀ {η : Type} [Host η] (w : Workspace η),
      reattach w s = (w, s, 0) ∧
      (∀ e error, (attach w s e).2.2 = .error error → (attach w s e).2.1 = s) ∧
      (∀ error, (recompile w s).2.2 = .error error → (recompile w s).2.1.roster = set) ∧
      (s.isUnchanged (w.readSource s.path) = true → (recompile w s).2.1.roster = set) ∧
      ((recompile w s).2.2 = .ok () → s.isUnchanged (w.readSource s.path) = false →
        ∃ w' type source, s.prepare w = .compiled w' type source ∧
          (recompile w s).2.1.compiled = some type ∧
          (recompile w s).2.1.attached = w'.accepted type set ∧
          (w'.accepted type set).Sublist set) := by
  obtain ⟨hsettled, rfl⟩ := h.settled
  refine ⟨rfl, hsettled.nodup, ?_, ?_, ?_⟩
  · intro hc
    obtain ⟨type, hc⟩ := Option.isSome_iff_exists.1 hc
    exact ⟨(hsettled.roster_of_some hc).symm, hsettled.attached (by simp [hc])⟩
  · intro hc
    exact ⟨hsettled.waiting hc, (hsettled.roster_of_none hc).symm⟩
  · intro η _ w
    refine ⟨hsettled.reattach_eq w, ?_, ?_, ?_, ?_⟩
    · exact fun e error hresult => attach_refused hresult
    · intro error hresult
      rw [roster_recompile, kept_of_failed hresult]
    · intro hsame
      rw [roster_recompile, kept_of_unchanged hsame]
    · intro hresult hchanged
      obtain ⟨w', type, source, hp, hc⟩ := prepare_of_ok hresult hchanged
      have hroster := roster_recompile w s
      rw [(hsettled.recompile w).roster_of_some hc, kept, hp] at hroster
      exact ⟨w', type, source, hp, hc, hroster, Workspace.accepted_sublist w' type s.roster⟩

/-! ### A first run -/

/-- Loading without a watch. -/
theorem load_of_unwatched {η : Type} {w w' : Workspace η} {identity source : String} {p : Path}
    {options : ScriptOptions} {s : Script} (hread : w.readSource p = .ok source)
    (hsource : ofSource w identity p options source = (w', .ok s))
    (hwatch : s.options.hotReload = false) : load w identity p options = (w', .ok s) := by
  simp [load, hread, hsource, startWatch, hwatch]

/-- The source of a type without members. -/
def spinSource : String := "class Spin {}"

/-- A workspace that has this source in its root folder, and an empty stage. -/
def spinWorkspace : Workspace Stage where
  files := { entries := [(["spin"], .file spinSource.toUTF8)] }
  host := {}

theorem isName_spin : Path.IsName "spin" := by decide +kernel

theorem readText_spin {f : Files} {text : String} (hentry : f.entry? ["spin"] = some (.file text.toUTF8)) :
    f.readText ⟨"/spin"⟩ = .ok text :=
  Files.readText_of_root (by decide +kernel) isName_spin (by decide +kernel) hentry

/-- What loading the source leaves behind: a workspace, and a script without a watch. -/
def spinLoaded : Workspace Stage × Except ScriptError Script :=
  ofSource spinWorkspace "spin" ⟨"/spin"⟩ { hotReload := false } spinSource

def spinScript : Script := spinLoaded.2.toOption.getD default

theorem load_spin :
    load spinWorkspace "spin" ⟨"/spin"⟩ { hotReload := false } = (spinLoaded.1, .ok spinScript) := by
  have hread : spinWorkspace.readSource ⟨"/spin"⟩ = .ok spinSource := by
    rw [Workspace.readSource, readText_spin rfl]
  have hsource : spinLoaded.2 = .ok spinScript := eq_ok_of_isOk (by decide +kernel)
  exact load_of_unwatched hread (Prod.ext rfl hsource) (by decide +kernel)

/-- A script that has been loaded, and then been given one entity on a stage that has it. -/
theorem roster_of_one_attachment :
    ∃ s : Script, Follows s [⟨0, 1⟩] ∧ s.roster = [⟨0, 1⟩] ∧ s.suspended = [] := by
  let w : Workspace Stage := { spinWorkspace with host := (({} : Stage).spawnNamed "top").1 }
  have hset : spinScript.effect w [] (.attach ⟨0, 1⟩) = [⟨0, 1⟩] := by decide +kernel
  have hload := Follows.load spinWorkspace "spin" ⟨"/spin"⟩ _ (congrArg Prod.snd load_spin)
  have hrun := Follows.call w hload (.attach ⟨0, 1⟩)
  rw [hset] at hrun
  exact ⟨_, hrun, (roster_refines_ordered_set hrun).1, by decide +kernel⟩

end Script

end HotReload
