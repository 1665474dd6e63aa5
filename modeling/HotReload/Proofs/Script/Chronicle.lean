import HotReload.Proofs.Script.Footing
import HotReload.Proofs.Script.Roster

/-! # Chronicles: what the events of a script account for

    Whoever follows a script takes its events from time to time, and knows nothing else.
    As long as no event has made room for another, the events that were taken and those
    that still wait are the *chronicle* of the script.  From it can be told how many
    entities are attached, how often the script was compiled, whether it has a type, and
    how many entities were left behind by each reload that failed.

    The chronicle does not have an event for every change: a reload takes away and gives
    back attachments in one event, and an entity that waits goes without any.  So the
    proof looks at the events of each call together with what the call has changed
    (`Tells`), and adds the calls up. -/

namespace HotReload

/-! ## Section 1 - what single events tell -/

namespace Event

/-- How many entities are attached after an event, if it was a number before. -/
def attachedAfter (n : Int) : Event → Int
  | attached .. => n + 1
  | detached .. => n - 1
  | recompiled _ _ _ reattached _ => reattached
  | recompileFailed .. => 0
  | compiled .. | recompileSkipped _ | discarded _ => n

/-- The generation that an event reports, if it is about a compile that succeeded. -/
def generation? : Event → Option Nat
  | compiled _ _ generation _ | recompiled _ _ generation _ _ => some generation
  | recompileFailed .. | recompileSkipped _ | attached .. | detached .. | discarded _ => none

/-- Whether there is a type after an event, if it is about a compile. -/
def hasType? : Event → Option Bool
  | compiled .. | recompiled .. => some true
  | recompileFailed .. => some false
  | recompileSkipped _ | attached .. | detached .. | discarded _ => none

/-- How many entities an event reports as suspended. -/
def suspended? : Event → Option Nat
  | recompileFailed _ _ suspended => some suspended
  | compiled .. | recompiled .. | recompileSkipped _ | attached .. | detached .. | discarded _ => none

end Event

/-! ## Section 2 - queues -/

namespace EventQueue

/-- How many events have been added since events were last taken. -/
def pushed (q : EventQueue) : Nat := q.size + q.dropped

/-- Adds events one after the other. -/
def pushAll (q : EventQueue) (es : List Event) : EventQueue := es.foldl push q

theorem pushAll_append (q : EventQueue) (es es' : List Event) :
    q.pushAll (es ++ es') = (q.pushAll es).pushAll es' :=
  List.foldl_append

/-- What is in a queue has been there before, or it is what has been added. -/
theorem mem_push {q : EventQueue} {e e' : Event} (h : e' ∈ (q.push e).events) : e' ∈ q.events ∨ e' = e := by
  unfold push at h
  split at h <;> rcases List.mem_append.1 h with hold | hnew
  · exact .inl (List.mem_of_mem_drop hold)
  · exact .inr (List.mem_singleton.1 hnew)
  · exact .inl hold
  · exact .inr (List.mem_singleton.1 hnew)

/-- What is in a queue to which events have been added has been there before, or is one of these. -/
theorem mem_pushAll {q : EventQueue} {es : List Event} {e : Event} (h : e ∈ (q.pushAll es).events) :
    e ∈ q.events ∨ e ∈ es := by
  induction es generalizing q with
  | nil => exact .inl h
  | cons new es ih =>
    rcases ih h with hold | hlater
    · rcases mem_push hold with hold | hnew
      · exact .inl hold
      · exact .inr (hnew ▸ List.mem_cons_self)
    · exact .inr (List.mem_cons_of_mem new hlater)

/-- A queue to which events have been added since it was last empty.  While there is room for all of
    them, it holds them all. -/
structure Keeps (q : EventQueue) (recent : List Event) : Prop where
  capacity : q.capacity = maxPendingEvents
  pushed : q.pushed = recent.length
  events : recent.length ≤ maxPendingEvents → q.events = recent

namespace Keeps
variable {q : EventQueue} {recent : List Event}

theorem push (h : q.Keeps recent) (e : Event) : (q.push e).Keeps (recent ++ [e]) where
  capacity := by
    rw [capacity_push]
    exact h.capacity
  pushed := by
    have hcapacity : q.capacity = 256 := h.capacity
    have hpushed : q.events.length + q.dropped = recent.length := h.pushed
    show (q.push e).events.length + (q.push e).dropped = (recent ++ [e]).length
    rw [List.length_append, List.length_singleton, ← hpushed]
    unfold EventQueue.push
    by_cases hfull : q.events.length = q.capacity
    · -- the oldest event is dropped, and is counted as dropped
      rw [if_pos hfull]
      simp only [List.length_append, List.length_drop, List.length_singleton]
      omega
    · rw [if_neg hfull]
      simp only [List.length_append, List.length_singleton]
      omega
  events := by
    intro hroom
    rw [List.length_append, List.length_singleton] at hroom
    have hevents : q.events = recent := h.events (by omega)
    have hfree : q.events.length ≠ q.capacity := by
      rw [hevents, h.capacity]
      omega
    unfold EventQueue.push
    rw [if_neg hfree, hevents]

theorem pushAll (h : q.Keeps recent) (es : List Event) : (q.pushAll es).Keeps (recent ++ es) := by
  induction es generalizing q recent with
  | nil => simpa [EventQueue.pushAll] using h
  | cons e es ih =>
    have hstep := ih (h.push e)
    rwa [List.append_assoc] at hstep

theorem drain (h : q.Keeps recent) : q.drain.1.Keeps [] where
  capacity := h.capacity
  pushed := rfl
  events := fun _ => rfl

theorem events_of_room (h : q.Keeps recent) (hroom : q.pushed ≤ maxPendingEvents) : q.events = recent :=
  h.events (h.pushed ▸ hroom)

end Keeps

end EventQueue

namespace Script

/-! ## Section 3 - what the events of a call tell -/

/-- From one state of a script to another, what the events that are added tell of the change.  The numbers
    are those of the entities that were left behind. -/
structure Tells (s s' : Script) (new : List Event) (left : List Nat) : Prop where
  events : s'.events = s.events.pushAll new
  attached : new.foldl Event.attachedAfter (s.attachments.length : Int) = s'.attachments.length
  generations : List.range' 1 s.generation ++ new.filterMap Event.generation? = List.range' 1 s'.generation
  hasType : (new.filterMap Event.hasType?).getLast?.getD s.compiled.isSome = s'.compiled.isSome
  suspended : new.filterMap Event.suspended? = left

namespace Tells
variable {s s' s'' : Script} {new new' : List Event} {left left' : List Nat}

/-- Where nothing is told, nothing has changed that would have to be. -/
theorem silent (hevents : s'.events = s.events) (hattached : s'.attachments.length = s.attachments.length)
    (hgeneration : s'.generation = s.generation) (hcompiled : s'.compiled = s.compiled) :
    Tells s s' [] [] where
  events := hevents
  attached := by rw [hattached]; rfl
  generations := by rw [hgeneration]; exact List.append_nil _
  hasType := by rw [hcompiled]; rfl
  suspended := rfl

theorem refl (s : Script) : Tells s s [] [] := silent rfl rfl rfl rfl

theorem trans (h : Tells s s' new left) (h' : Tells s' s'' new' left') :
    Tells s s'' (new ++ new') (left ++ left') where
  events := by rw [EventQueue.pushAll_append, ← h.events, h'.events]
  attached := by rw [List.foldl_append, h.attached, h'.attached]
  generations := by rw [List.filterMap_append, ← List.append_assoc, h.generations, h'.generations]
  hasType := by
    rw [List.filterMap_append, List.getLast?_append, ← h'.hasType, ← h.hasType]
    cases (new'.filterMap Event.hasType?).getLast? <;> rfl
  suspended := by rw [List.filterMap_append, h.suspended, h'.suspended]

/-- An event that tells of an entity, and of nothing else. -/
theorem of_entity {e : Event} (hevents : s'.events = s.events.push e)
    (hattached : e.attachedAfter s.attachments.length = s'.attachments.length)
    (hgeneration : s'.generation = s.generation ∧ e.generation? = none)
    (hcompiled : s'.compiled = s.compiled ∧ e.hasType? = none) (hsuspended : e.suspended? = none) :
    Tells s s' [e] [] where
  events := hevents
  attached := hattached
  generations := by
    rw [hgeneration.1, List.filterMap_cons_none hgeneration.2]
    exact List.append_nil _
  hasType := by
    rw [hcompiled.1, List.filterMap_cons_none hcompiled.2]
    rfl
  suspended := List.filterMap_cons_none hsuspended

end Tells

variable {η : Type}

/-- Going out of service is told once. -/
theorem tells_discard (s : Script) : ∃ new, Tells s s.discard new [] := by
  unfold discard
  split
  · exact ⟨[], .refl s⟩
  · exact ⟨[.discarded s.identity], .of_entity rfl rfl ⟨rfl, rfl⟩ ⟨rfl, rfl⟩ rfl⟩

/-- Coming back is not told at all. -/
theorem tells_resume (w : Workspace η) (s : Script) : Tells s (resume w s).2 [] [] := by
  unfold resume
  split
  · rcases startWatch_cases w { s with discarded := false } with heq | ⟨watch, heq⟩ | ⟨line, heq⟩ <;>
      · rw [heq]
        exact .silent rfl rfl rfl rfl
  · exact .refl s

section calls
variable [Host η]

theorem tells_attach (w : Workspace η) (s : Script) (e : Entity) :
    ∃ new, Tells s (attach w s e).2.1 new [] := by
  rcases attach_cases w s e with ⟨-, heq⟩ | ⟨-, -, heq⟩ | ⟨-, type, ref, -, -, heq⟩ |
    ⟨-, type, error, line, -, -, heq⟩ <;> rw [heq]
  · exact ⟨[], .refl s⟩
  · refine ⟨[], ?_⟩
    dsimp only
    split
    · exact .refl s
    · exact .silent rfl rfl rfl rfl
  · refine ⟨[.attached s.identity e], .of_entity rfl ?_ ⟨rfl, rfl⟩ ⟨rfl, rfl⟩ rfl⟩
    show (s.attachments.length : Int) + 1 = (s.link e ref).attachments.length
    simp [link]
  · exact ⟨[], .refl s⟩

theorem tells_attachEach (w : Workspace η) (s : Script) (es : List Entity) :
    ∃ new, Tells s (attachEach w s es).2.1 new [] := by
  induction es generalizing w s with
  | nil => exact ⟨[], .refl s⟩
  | cons e es ih =>
    obtain ⟨new, hfirst⟩ := tells_attach w s e
    obtain ⟨new', hrest⟩ := ih (attach w s e).1 (attach w s e).2.1
    exact ⟨new ++ new', hfirst.trans hrest⟩

theorem tells_detach (w : Workspace η) (s : Script) (e : Entity) :
    ∃ new, Tells s (detach w s e).2.1 new [] := by
  rcases detach_cases w s e with ⟨-, heq⟩ | ⟨front, a, back, hsplit, -, -, heq⟩ <;> rw [heq]
  · exact ⟨[], .silent rfl rfl rfl rfl⟩
  · refine ⟨[.detached s.identity e], .of_entity rfl ?_ ⟨rfl, rfl⟩ ⟨rfl, rfl⟩ rfl⟩
    show (s.attachments.length : Int) - 1 = (front ++ back).length
    rw [hsplit, List.length_append, List.length_cons, List.length_append]
    omega

theorem tells_detachEach (w : Workspace η) (s : Script) (es : List Entity) :
    ∃ new, Tells s (detachEach w s es).2 new [] := by
  induction es generalizing w s with
  | nil => exact ⟨[], .refl s⟩
  | cons e es ih =>
    obtain ⟨new, hfirst⟩ := tells_detach w s e
    obtain ⟨new', hrest⟩ := ih (detach w s e).1 (detach w s e).2.1
    exact ⟨new ++ new', hfirst.trans hrest⟩

/-- Entities get their new instances without a word. -/
theorem readd_silent (w : Workspace η) (s : Script) (type : BehaviourType) (es : List Entity) :
    (readd w s type es).2.events = s.events ∧ (readd w s type es).2.generation = s.generation := by
  induction es generalizing w s with
  | nil => exact ⟨rfl, rfl⟩
  | cons e es ih =>
    cases hr : (w.addBehaviour e type).2 with
    | ok ref =>
      rw [readd_cons_of_ok hr]
      exact ih (w.addBehaviour e type).1 (s.link e ref)
    | error error =>
      obtain ⟨line, heq⟩ := readd_cons_of_error hr s es
      rw [heq]
      exact ih ((w.addBehaviour e type).1.say line) s

/-- A reload that succeeds tells of the new generation, and how many entities it has got. -/
theorem tells_renew (w : Workspace η) {s s₀ : Script} (type : BehaviourType) (source : String)
    (es : List Entity) (hevents : s.events = s₀.events) (hgeneration : s.generation = s₀.generation) :
    ∃ new, Tells s₀ (renew w s type source es).2 new [] := by
  let next : Script := { s with generation := s.generation + 1, compiled := some type, source := some source }
  obtain ⟨hsame, hnumber⟩ := readd_silent w next type es
  have hnumber' : (readd w next type es).2.generation = s₀.generation + 1 := by
    rw [hnumber, ← hgeneration]
  refine ⟨[.recompiled (readd w next type es).2.identity type.name (readd w next type es).2.generation
    (readd w next type es).2.attachments.length (readd w next type es).1.lapse], ?_, rfl, ?_, ?_, rfl⟩
  · show (readd w next type es).2.events.push _ = s₀.events.push _
    rw [hsame]
    exact congrArg (EventQueue.push · _) hevents
  · show List.range' 1 s₀.generation ++ [(readd w next type es).2.generation] =
      List.range' 1 (readd w next type es).2.generation
    rw [hnumber', List.range'_1_concat, Nat.add_comm 1]
  · show true = (renew w s type source es).2.compiled.isSome
    rw [(renew_fields w s type source es).2.2]
    rfl

/-- A reload fails exactly if the script has no type afterwards. -/
theorem isOk_recompile (w : Workspace η) (s : Script) :
    (recompile w s).2.2.isOk = (recompile w s).2.1.compiled.isSome := by
  rcases prepare_cases w s with ⟨hsame, hp, hok⟩ | ⟨-, w', error, hp, hfail⟩ | ⟨-, w', type, source, -, hok, hc⟩
  · have hsome : s.compiled.isSome = true := by
      unfold isUnchanged at hsame
      split at hsame
      · rw [Bool.and_eq_true, Bool.and_eq_true] at hsame
        exact hsame.1.2
      · cases hsame
    rw [hok, recompile_eq, hp]
    exact hsome.symm
  · rw [hfail, recompile_eq, hp]
    rfl
  · rw [hok, hc]
    rfl

/-- How many entities a call leaves behind, if it is a reload that fails. -/
def stranded (w : Workspace η) (s : Script) : Call → List Nat
  | .recompile => if (recompile w s).2.2.isOk then [] else [(recompile w s).2.1.suspended.length]
  | .update =>
    if (update w s).2.2 && (update w s).2.1.compiled.isNone then [(update w s).2.1.suspended.length] else []
  | _ => []

/-- A reload that fails tells how many entities wait from now on. -/
theorem tells_recompile (w : Workspace η) (s : Script) :
    ∃ new, Tells s (recompile w s).2.1 new (s.stranded w .recompile) := by
  unfold stranded
  rw [recompile_eq]
  cases hp : s.prepare w with
  | skipped => exact ⟨[.recompileSkipped s.identity], .of_entity rfl rfl ⟨rfl, rfl⟩ ⟨rfl, rfl⟩ rfl⟩
  | failed w' error =>
    refine ⟨[.recompileFailed s.identity error.message s.roster.length], rfl, rfl, ?_, rfl, rfl⟩
    exact List.append_nil _
  | compiled w' type source => exact tells_renew w' type source s.roster rfl rfl

/-- An update tells what the reload does that it makes, if it makes one. -/
theorem tells_update (w : Workspace η) (s : Script) :
    ∃ new, Tells s (update w s).2.1 new (s.stranded w .update) := by
  unfold stranded
  rcases update_cases w s with ⟨-, -, heq⟩ | ⟨-, heq⟩ <;> rw [heq]
  · have htaken : Tells s s.answered [] [] := .silent rfl rfl rfl rfl
    obtain ⟨new, htells⟩ := tells_recompile w s.answered
    refine ⟨new, ?_⟩
    have hsame : s.answered.stranded w .recompile =
        if (recompile w s.answered).2.1.compiled.isNone then [(recompile w s.answered).2.1.suspended.length]
        else [] := by
      unfold stranded
      rw [isOk_recompile]
      cases (recompile w s.answered).2.1.compiled <;> rfl
    rw [hsame] at htells
    exact htaken.trans htells
  · exact ⟨[], .refl s⟩

/-- Every call tells what it does. -/
theorem tells_call (w : Workspace η) (s : Script) (c : Call) :
    ∃ new, Tells s (s.call w c).2 new (s.stranded w c) := by
  cases c with
  | attach e => exact tells_attach w s e
  | detach e => exact tells_detach w s e
  | detachAll =>
    have hcut : Tells s { s with suspended := [] } [] [] := .silent rfl rfl rfl rfl
    obtain ⟨new, htells⟩ := tells_detachEach w { s with suspended := [] } s.attached
    exact ⟨new, hcut.trans htells⟩
  | reattach =>
    show ∃ new, Tells s (reattach w s).2.1 new []
    unfold reattach
    split
    · exact ⟨[], .refl s⟩
    · have hcut : Tells s { s with suspended := [] } [] [] := .silent rfl rfl rfl rfl
      obtain ⟨new, htells⟩ := tells_attachEach w { s with suspended := [] } s.suspended
      exact ⟨new, hcut.trans htells⟩
  | requestReload => exact ⟨[], .silent rfl rfl rfl rfl⟩
  | update => exact tells_update w s
  | recompile => exact tells_recompile w s
  | discard => exact tells_discard s
  | resume => exact ⟨[], tells_resume w s⟩

/-- A reload tells of itself by a single event, whether there was nothing to do, or it has failed, or it has
    succeeded. -/
theorem events_recompile (w : Workspace η) (s : Script) :
    (s.isUnchanged (w.readSource s.path) = true ∧
      (recompile w s).2.1.events = s.events.push (.recompileSkipped s.identity)) ∨
    (s.isUnchanged (w.readSource s.path) = false ∧ ∃ error suspended,
      (recompile w s).2.1.events = s.events.push (.recompileFailed s.identity error suspended)) ∨
    (s.isUnchanged (w.readSource s.path) = false ∧ ∃ type generation reattached elapsed,
      (recompile w s).2.1.events = s.events.push (.recompiled s.identity type generation reattached elapsed)) := by
  rcases prepare_cases w s with ⟨hsame, hp, -⟩ | ⟨hsame, w', error, hp, -⟩ | ⟨hsame, w', type, source, hp, -⟩ <;>
    rw [recompile_eq, hp]
  · exact .inl ⟨hsame, rfl⟩
  · exact .inr (.inl ⟨hsame, error.message, s.roster.length, rfl⟩)
  · let next : Script := { (strip w s).2 with
      generation := s.generation + 1, compiled := some type, source := some source }
    have hsilent : (readd w' next type s.roster).2.events = s.events := (readd_silent w' next type s.roster).1
    have hidentity : (readd w' next type s.roster).2.identity = s.identity :=
      congrArg Footing.identity (readd_frame w' next type s.roster).footing
    refine .inr (.inr ⟨hsame, type.name, (readd w' next type s.roster).2.generation,
      (readd w' next type s.roster).2.attachments.length, (readd w' next type s.roster).1.lapse, ?_⟩)
    rw [← hsilent, ← hidentity]
    rfl

end calls

/-! ## Section 4 - what is not told -/

/-- From one state of a script to another, events are added, none of which is of a kind. -/
def Withholds (kind : Event → Prop) (s s' : Script) : Prop :=
  ∃ new, s'.events = s.events.pushAll new ∧ ∀ e ∈ new, ¬ kind e

namespace Withholds
variable {kind : Event → Prop} {s s' s'' : Script}

theorem of_eq (h : s'.events = s.events) : Withholds kind s s' := ⟨[], h, List.forall_mem_nil _⟩

theorem trans (h : Withholds kind s s') (h' : Withholds kind s' s'') : Withholds kind s s'' := by
  obtain ⟨new, hevents, hnew⟩ := h
  obtain ⟨new', hevents', hnew'⟩ := h'
  refine ⟨new ++ new', ?_, List.forall_mem_append.2 ⟨hnew, hnew'⟩⟩
  rw [EventQueue.pushAll_append, ← hevents, hevents']

theorem of_push {new : Event} (h : s'.events = s.events.push new) (hnew : ¬ kind new) : Withholds kind s s' :=
  ⟨[new], h, List.forall_mem_singleton.2 hnew⟩

/-- So the events of this kind that wait have waited before. -/
theorem mem_before (h : Withholds kind s s') {e : Event} (he : kind e) (hmem : e ∈ s'.events.events) :
    e ∈ s.events.events := by
  obtain ⟨new, hevents, hnew⟩ := h
  rw [hevents] at hmem
  exact (EventQueue.mem_pushAll hmem).resolve_right fun hadded => hnew e hadded he

/-- Going out of service is told as that. -/
theorem discard (hkind : ∀ identity, ¬ kind (.discarded identity)) (s : Script) : Withholds kind s s.discard := by
  unfold Script.discard
  split
  · exact .of_eq rfl
  · exact .of_push rfl (hkind s.identity)

variable [Host η]

/-- Attaching an entity is told as that, if it is told at all. -/
theorem attach (hkind : ∀ identity e, ¬ kind (.attached identity e)) (w : Workspace η) (s : Script) (e : Entity) :
    Withholds kind s (s.attach w e).2.1 := by
  rcases attach_cases w s e with ⟨-, heq⟩ | ⟨-, -, heq⟩ | ⟨-, type, ref, -, -, heq⟩ |
    ⟨-, type, error, line, -, -, heq⟩ <;> rw [heq]
  · exact .of_eq rfl
  · refine .of_eq ?_
    dsimp only
    split <;> rfl
  · exact .of_push rfl (hkind s.identity e)
  · exact .of_eq rfl

theorem attachEach (hkind : ∀ identity e, ¬ kind (.attached identity e)) (w : Workspace η) (s : Script)
    (es : List Entity) : Withholds kind s (s.attachEach w es).2.1 := by
  induction es generalizing w s with
  | nil => exact .of_eq rfl
  | cons e es ih => exact (attach hkind w s e).trans (ih _ _)

theorem detach (hkind : ∀ identity e, ¬ kind (.detached identity e)) (w : Workspace η) (s : Script) (e : Entity) :
    Withholds kind s (s.detach w e).2.1 := by
  rcases detach_cases w s e with ⟨-, heq⟩ | ⟨front, a, back, -, -, -, heq⟩ <;> rw [heq]
  · exact .of_eq rfl
  · exact .of_push rfl (hkind s.identity e)

theorem detachEach (hkind : ∀ identity e, ¬ kind (.detached identity e)) (w : Workspace η) (s : Script)
    (es : List Entity) : Withholds kind s (s.detachEach w es).2 := by
  induction es generalizing w s with
  | nil => exact .of_eq rfl
  | cons e es ih => exact (detach hkind w s e).trans (ih _ _)

end Withholds

/-! ## Section 5 - chronicles -/

/-- A script that has come about by loading and by calls, with the events that have been taken from it, and
    the numbers of entities that were left behind by the reloads that failed.  Every call may meet other
    files, another compiler and another host.  Events are taken before any of them is lost. -/
inductive Chronicle : Script → List Event → List Nat → Prop where
  | load {η : Type} (w : Workspace η) (identity : String) (p : Path) (options : ScriptOptions)
    {s : Script} (h : (load w identity p options).2 = .ok s) : Chronicle s [] []
  | call {η : Type} [Host η] (w : Workspace η) {s : Script} {taken : List Event} {left : List Nat}
    (h : Chronicle s taken left) (c : Call) : Chronicle (s.call w c).2 taken (left ++ s.stranded w c)
  | drain {s : Script} {taken : List Event} {left : List Nat} (h : Chronicle s taken left)
    (hroom : s.events.pushed ≤ maxPendingEvents) :
    Chronicle s.drainEvents.1 (taken ++ s.drainEvents.2) left

/-- What events account for, from the beginning of a script. -/
structure Accounts (events : List Event) (left : List Nat) (s : Script) : Prop where
  /-- They add up to the number of entities that are attached. -/
  attached : events.foldl Event.attachedAfter 0 = s.attached.length
  /-- They number the compiles without a gap, up to the last. -/
  generations : events.filterMap Event.generation? = List.range' 1 s.generation
  latest : (events.filterMap Event.generation?).getLast? = some s.generation
  /-- The last of them that is about a compile says whether there is a type. -/
  hasType : (events.filterMap Event.hasType?).getLast? = some s.compiled.isSome
  /-- They tell how many entities were left behind each time. -/
  suspended : events.filterMap Event.suspended? = left

theorem getLast?_range'_one {n : Nat} : (List.range' 1 n).getLast? = some n ↔ n ≠ 0 := by
  rw [List.getLast?_range']
  by_cases hn : n = 0
  · simp [hn]
  · rw [if_neg hn]
    simp [hn]

namespace Accounts
variable {s s' : Script} {events new : List Event} {left left' : List Nat}

/-- The events of a script that has been loaded. -/
theorem load {η : Type} {w : Workspace η} {identity : String} {p : Path} {options : ScriptOptions}
    (h : (Script.load w identity p options).2 = .ok s) :
    s.events.Keeps s.events.events ∧ Accounts s.events.events [] s := by
  obtain ⟨type, source, elapsed, watch, rfl⟩ := load_made h
  exact ⟨⟨rfl, rfl, fun _ => rfl⟩, rfl, rfl, rfl, rfl, rfl⟩

/-- What is told of a change is added to the account. -/
theorem add (h : Accounts events left s) (htells : Tells s s' new left') :
    Accounts (events ++ new) (left ++ left') s' := by
  have hattached : (s.attached.length : Int) = s.attachments.length := by rw [Script.attached, List.length_map]
  have hattached' : (s'.attached.length : Int) = s'.attachments.length := by
    rw [Script.attached, List.length_map]
  have hgenerations : (events ++ new).filterMap Event.generation? = List.range' 1 s'.generation := by
    rw [List.filterMap_append, h.generations, htells.generations]
  refine ⟨?_, hgenerations, ?_, ?_, ?_⟩
  · rw [List.foldl_append, h.attached, hattached, htells.attached, hattached']
  · -- there was a compile to begin with, and the generations only grow
    have hfirst : s.generation ≠ 0 := by
      rw [← getLast?_range'_one, ← h.generations]
      exact h.latest
    have hgrow := congrArg List.length htells.generations
    rw [List.length_append, List.length_range', List.length_range'] at hgrow
    rw [hgenerations, getLast?_range'_one]
    omega
  · rw [List.filterMap_append, List.getLast?_append, h.hasType, ← htells.hasType]
    cases (new.filterMap Event.hasType?).getLast? <;> rfl
  · rw [List.filterMap_append, h.suspended, htells.suspended]

end Accounts

/-- The events that wait are those since the last time events were taken, as long as there is room for them;
    and together with those that were taken they account for the script. -/
theorem Chronicle.recent {s : Script} {taken : List Event} {left : List Nat} (h : Chronicle s taken left) :
    ∃ recent, s.events.Keeps recent ∧ Accounts (taken ++ recent) left s := by
  induction h with
  | load w identity p options h => exact ⟨_, Accounts.load h⟩
  | @call η _ w s taken left _ c ih =>
    obtain ⟨recent, hkeeps, haccounts⟩ := ih
    obtain ⟨new, htells⟩ := tells_call w s c
    refine ⟨recent ++ new, ?_, ?_⟩
    · rw [htells.events]
      exact hkeeps.pushAll new
    · rw [← List.append_assoc]
      exact haccounts.add htells
  | @drain s taken left _ hroom ih =>
    obtain ⟨recent, hkeeps, haccounts⟩ := ih
    refine ⟨[], hkeeps.drain, ?_⟩
    -- taking the events moves them from one end of the account to the other
    have htaken : s.drainEvents.2 = recent := hkeeps.events_of_room hroom
    rw [htaken, List.append_nil]
    exact ⟨haccounts.attached, haccounts.generations, haccounts.latest, haccounts.hasType,
      haccounts.suspended⟩

/-- Unless an event is lost because too many of them wait, the events of a script account for it at any
    time: for its attachments, its generation, its type, and the entities that were left behind. -/
theorem accounts_of_chronicle {s : Script} {taken : List Event} {left : List Nat}
    (h : Chronicle s taken left) (hroom : s.events.pushed ≤ maxPendingEvents) :
    Accounts (taken ++ s.events.events) left s := by
  obtain ⟨recent, hkeeps, haccounts⟩ := h.recent
  rw [hkeeps.events_of_room hroom]
  exact haccounts

/-! ### A source that loses its body -/

/-- A workspace with an entity, in which the source is some text. -/
def spinTextWorkspace (text : String) : Workspace Stage where
  files := { entries := [(["spin"], .file text.toUTF8)] }
  host := (({} : Stage).spawnNamed "top").1

/-- A script with that entity, whose events have just been taken. -/
def spinDrained : Script := (spinScript.call (spinTextWorkspace spinSource) (.attach ⟨0, 1⟩)).2.drainEvents.1

theorem recompile_spinDrained (text : String) :
    recompile (spinTextWorkspace text) spinDrained =
      recompileFrom (spinTextWorkspace text) spinDrained (.ok text) := by
  have hpath : spinDrained.path = ⟨"/spin"⟩ := by decide +kernel
  have hread : (spinTextWorkspace text).readSource ⟨"/spin"⟩ = .ok text := by
    rw [Workspace.readSource, readText_spin rfl]
  rw [recompile, hpath, hread]

/-- The entity is left behind, and the events from before and after the failure account for that. -/
theorem accounts_after_failed_reload : ∃ (s : Script) (taken : List Event), Chronicle s taken [1] ∧
    s.events.pushed ≤ maxPendingEvents ∧ taken.length = 2 ∧ Accounts (taken ++ s.events.events) [1] s := by
  have hload := Chronicle.load spinWorkspace "spin" ⟨"/spin"⟩ _ (congrArg Prod.snd load_spin)
  have hattached := hload.call (spinTextWorkspace spinSource) (.attach ⟨0, 1⟩)
  have hdrained : Chronicle spinDrained _ _ := hattached.drain (by decide +kernel)
  have hfailed := hdrained.call (spinTextWorkspace "class Spin") .recompile
  have hrecompile : recompile (spinTextWorkspace "class Spin") spinDrained =
      recompileFrom (spinTextWorkspace "class Spin") spinDrained (.ok "class Spin") :=
    recompile_spinDrained "class Spin"
  have hstranded : spinDrained.stranded (spinTextWorkspace "class Spin") .recompile = [1] := by
    rw [stranded, hrecompile]
    decide +kernel
  rw [hstranded] at hfailed
  have hroom : (spinDrained.call (spinTextWorkspace "class Spin") .recompile).2.events.pushed ≤
      maxPendingEvents := by
    show (recompile (spinTextWorkspace "class Spin") spinDrained).2.1.events.pushed ≤ maxPendingEvents
    rw [hrecompile]
    decide +kernel
  exact ⟨_, _, hfailed, hroom, by decide +kernel, accounts_of_chronicle hfailed hroom⟩

end Script

end HotReload
