import HotReload.Script.Reload

/-! # Calls of a script

    The owner of a script acts on it by nine operations, which are gathered here as
    *calls*.  Each of them is described by the few cases that it can come to: that is
    all that the theory of scripts needs to know about it, and the only place where the
    definitions of the operations are opened.

    Whatever a script writes to the log or reports as an event has no influence on
    what its host does, so most fields of the workspace and of the script stay out of
    these descriptions. -/

namespace HotReload

variable {η : Type}

/-! ## Section 1 - workspaces -/

namespace Workspace

@[simp] theorem host_say (w : Workspace η) (line : LogLine) : (w.say line).host = w.host := rfl

@[simp] theorem context_say (w : Workspace η) (line : LogLine) :
    (w.say line).context = w.context :=
  rfl

@[simp] theorem host_extract (w : Workspace η) (source : String) :
    (w.extract source).1.host = w.host :=
  rfl

variable [Host η]

@[simp] theorem context_addBehaviour (w : Workspace η) (e : Entity) (type : BehaviourType) :
    (w.addBehaviour e type).1.context = w.context :=
  rfl

@[simp] theorem context_destroyBehaviour (w : Workspace η) (r : InstanceRef) :
    (w.destroyBehaviour r).1.context = w.context :=
  rfl

/-- The entities of a list that the host accepts, if it is asked for an instance on one after
    the other. -/
def accepted (w : Workspace η) (type : BehaviourType) : List Entity → List Entity
  | [] => []
  | e :: es =>
    match w.addBehaviour e type with
    | (w, .ok _) => e :: w.accepted type es
    | (w, .error _) => w.accepted type es

theorem accepted_cons (w : Workspace η) (type : BehaviourType) (e : Entity) (es : List Entity) :
    w.accepted type (e :: es) = if (w.addBehaviour e type).2.isOk then
      e :: (w.addBehaviour e type).1.accepted type es else (w.addBehaviour e type).1.accepted type es := by
  rw [accepted]
  cases w.addBehaviour e type with
  | mk w' result => cases result <;> rfl

/-- What is asked of a host does not depend on the log. -/
theorem accepted_say (w : Workspace η) (line : LogLine) (type : BehaviourType) (es : List Entity) :
    (w.say line).accepted type es = w.accepted type es := by
  induction es generalizing w with
  | nil => rfl
  | cons e es ih =>
    -- the host answers as before, and the log goes on
    have hadd : (w.say line).addBehaviour e type =
        ((w.addBehaviour e type).1.say line, (w.addBehaviour e type).2) := rfl
    unfold accepted
    rw [hadd]
    cases hr : w.addBehaviour e type with
    | mk w' result =>
      cases result with
      | ok ref => exact congrArg (e :: ·) (ih w')
      | error error => exact ih w'

theorem accepted_sublist (w : Workspace η) (type : BehaviourType) (es : List Entity) :
    (w.accepted type es).Sublist es := by
  induction es generalizing w with
  | nil => exact .slnil
  | cons e es ih =>
    unfold accepted
    split
    · next w' _ _ => exact (ih w').cons_cons e
    · next w' _ _ => exact (ih w').cons e

end Workspace

namespace Script

/-! ## Section 2 - what reports leave alone -/

@[simp] theorem attachments_push (s : Script) (e : Event) : (s.push e).attachments = s.attachments :=
  rfl

@[simp] theorem suspended_push (s : Script) (e : Event) : (s.push e).suspended = s.suspended := rfl

@[simp] theorem compiled_push (s : Script) (e : Event) : (s.push e).compiled = s.compiled := rfl

@[simp] theorem attached_push (s : Script) (e : Event) : (s.push e).attached = s.attached := rfl

@[simp] theorem roster_push (s : Script) (e : Event) : (s.push e).roster = s.roster := rfl

@[simp] theorem attached_link (s : Script) (e : Entity) (ref : InstanceRef) :
    (s.link e ref).attached = s.attached ++ [e] := by
  simp [link, attached]

theorem mem_attached {s : Script} {e : Entity} : e ∈ s.attached ↔ s.isAttached e = true := by
  simp [isAttached]

/-- Watching touches no more than the log and the watch. -/
theorem startWatch_cases (w : Workspace η) (s : Script) :
    startWatch w s = (w, s) ∨
    (∃ watch, startWatch w s = (w, { s with watch := some watch })) ∨
    (∃ line, startWatch w s = (w.say line, s)) := by
  unfold startWatch
  split
  · exact .inl rfl
  · split
    · next watch _ => exact .inr (.inl ⟨watch, rfl⟩)
    · exact .inr (.inr ⟨_, rfl⟩)

/-- Loading asks nothing of a host. -/
theorem host_load (w : Workspace η) (identity : String) (p : Path) (options : ScriptOptions) :
    (load w identity p options).1.host = w.host := by
  -- the compiler works on the context alone
  have hsource : ∀ source, (ofSource w identity p options source).1.host = w.host := by
    intro source
    unfold ofSource
    have hhost := w.host_extract source
    split <;> next hx => rw [hx] at hhost; exact hhost
  unfold load
  split
  · rfl
  · next source _ =>
    have hhost := hsource source
    split
    · next hs => rw [hs] at hhost; exact hhost
    · next w' script hs =>
      rw [hs] at hhost
      rcases startWatch_cases w' script with heq | ⟨watch, heq⟩ | ⟨line, heq⟩ <;> rw [heq] <;> exact hhost

/-! ## Section 3 - calls -/

/-- What the owner of a script can ask of it. -/
inductive Call where
  | attach (e : Entity)
  | detach (e : Entity)
  | detachAll
  | reattach
  | requestReload
  | update
  | recompile
  | discard
  | resume
  deriving DecidableEq, Repr, Inhabited

/-- Putting a script out of service touches no entity. -/
theorem discard_fields (s : Script) :
    s.discard.compiled = s.compiled ∧ s.discard.attachments = s.attachments ∧
      s.discard.suspended = s.suspended := by
  unfold discard
  split <;> exact ⟨rfl, rfl, rfl⟩

/-- Bringing a script back into service touches no entity either. -/
theorem resume_fields (w : Workspace η) (s : Script) :
    (resume w s).1.host = w.host ∧ (resume w s).1.context = w.context ∧
      (resume w s).2.compiled = s.compiled ∧ (resume w s).2.attachments = s.attachments ∧
      (resume w s).2.suspended = s.suspended := by
  unfold resume
  split
  · rcases startWatch_cases w { s with discarded := false } with heq | ⟨watch, heq⟩ | ⟨line, heq⟩ <;>
      · rw [heq]
        exact ⟨rfl, rfl, rfl, rfl, rfl⟩
  · exact ⟨rfl, rfl, rfl, rfl, rfl⟩

variable [Host η]

/-- Carries out a call. -/
def call (w : Workspace η) (s : Script) : Call → Workspace η × Script
  | .attach e => let (w, s, _) := attach w s e; (w, s)
  | .detach e => let (w, s, _) := detach w s e; (w, s)
  | .detachAll => let (w, s, _) := detachAll w s; (w, s)
  | .reattach => let (w, s, _) := reattach w s; (w, s)
  | .requestReload => (w, s.requestReload)
  | .update => let (w, s, _) := update w s; (w, s)
  | .recompile => let (w, s, _) := recompile w s; (w, s)
  | .discard => (w, s.discard)
  | .resume => resume w s

@[simp] theorem host_destroyInstance (w : Workspace η) (s : Script) (a : Attachment) :
    (destroyInstance w s a).host = (Host.destroyBehaviour w.host a.ref).1 := by
  unfold destroyInstance
  have hhost : (w.destroyBehaviour a.ref).1.host = (Host.destroyBehaviour w.host a.ref).1 := rfl
  cases h : w.destroyBehaviour a.ref with
  | mk w' result =>
    rw [h] at hhost
    cases result <;> exact hhost

/-- Everything that attaching an entity can come to: it is attached already, it has to wait for a
    type, the host accepts it, or the host refuses. -/
theorem attach_cases (w : Workspace η) (s : Script) (e : Entity) :
    (e ∈ s.attached ∧ attach w s e = (w, s, .ok ())) ∨
    (e ∉ s.attached ∧ s.compiled = none ∧ attach w s e =
      (w, if e ∈ s.suspended then s else { s with suspended := s.suspended ++ [e] }, .ok ())) ∨
    (e ∉ s.attached ∧ ∃ type ref, s.compiled = some type ∧ (w.addBehaviour e type).2 = .ok ref ∧
      attach w s e =
        ((w.addBehaviour e type).1, (s.link e ref).push (.attached s.identity e), .ok ())) ∨
    (e ∉ s.attached ∧ ∃ type error line, s.compiled = some type ∧
      (w.addBehaviour e type).2 = .error error ∧
      attach w s e = ((w.addBehaviour e type).1.say line, s, .error error)) := by
  rw [mem_attached]
  unfold attach
  cases hatt : s.isAttached e with
  | true => exact .inl ⟨rfl, rfl⟩
  | false =>
    right
    cases hc : s.compiled with
    | none => exact .inl ⟨by simp, rfl, by simp⟩
    | some type =>
      right
      cases hadd : w.addBehaviour e type with
      | mk w' result =>
        cases result with
        | ok ref => exact .inl ⟨by simp, type, ref, rfl, by simp [hadd], by simp [hadd]⟩
        | error error => exact .inr ⟨by simp, type, error, _, rfl, by simp [hadd], by simp [hadd]; rfl⟩

/-- A script with other attachments, for which an entity does not wait any more. -/
def forget (s : Script) (e : Entity) (rest : List Attachment) : Script :=
  { s with suspended := s.suspended.filter (· ≠ e), attachments := rest }

/-- Detaching ends the waiting of an entity, and removes its first attachment, if it has one. -/
theorem detach_cases (w : Workspace η) (s : Script) (e : Entity) :
    (e ∉ s.attached ∧ detach w s e = (w, s.forget e s.attachments, s.suspended.contains e)) ∨
    ∃ front a back, s.attachments = front ++ a :: back ∧ e ∉ front.map Attachment.entity ∧
      a.entity = e ∧ detach w s e =
        (destroyInstance w (s.forget e (front ++ back)) a,
          (s.forget e (front ++ back)).push (.detached s.identity e), true) := by
  unfold detach
  cases hf : s.attachments.find? fun a => a.entity = e with
  | none =>
    left
    refine ⟨?_, by dsimp only; rw [hf]; rfl⟩
    simpa [attached] using hf
  | some a =>
    right
    obtain ⟨ha, front, back, hsplit, hfront⟩ := List.find?_eq_some_iff_append.1 hf
    have hfree : ∀ b ∈ front, ¬ (b.entity = e) := by
      intro b hb
      simpa using hfront b hb
    -- so the attachment that is erased is the one that was found
    have herase : s.attachments.eraseP (fun a => a.entity = e) = front ++ back := by
      rw [hsplit, List.eraseP_append_right _ (by simpa using hfree)]
      simp [ha]
    refine ⟨front, a, back, hsplit, by simpa using hfree, by simpa using ha, ?_⟩
    dsimp only
    rw [hf, ← herase]
    rfl

/-! ## Section 4 - reloads -/

section requests
variable {w : Workspace η} {type : BehaviourType} {e : Entity}

/-- A reload notes down an instance that it gets for an entity, and goes on. -/
theorem readd_cons_of_ok {ref : InstanceRef} (h : (w.addBehaviour e type).2 = .ok ref) (s : Script)
    (es : List Entity) :
    readd w s type (e :: es) = readd (w.addBehaviour e type).1 (s.link e ref) type es := by
  rw [readd]
  cases hadd : w.addBehaviour e type with
  | mk w' result =>
    rw [hadd] at h
    subst h
    rfl

/-- A reload passes over an entity for which it gets no instance, with a line in the log. -/
theorem readd_cons_of_error {error : HostError} (h : (w.addBehaviour e type).2 = .error error) (s : Script)
    (es : List Entity) : ∃ line,
    readd w s type (e :: es) = readd ((w.addBehaviour e type).1.say line) s type es := by
  rw [readd]
  cases hadd : w.addBehaviour e type with
  | mk w' result =>
    rw [hadd] at h
    subst h
    exact ⟨_, rfl⟩

end requests

/-- How far a reload comes before any entity is given an instance. -/
inductive Prepared (η : Type) where
  /-- The source is the one that the type was compiled from. -/
  | skipped
  /-- The source cannot be read, or does not compile. -/
  | failed (w : Workspace η) (error : ScriptError)
  | compiled (w : Workspace η) (type : BehaviourType) (source : String)

/-- Removes all instances and compiles a source that has been read, unless there is nothing to do. -/
def prepareFrom (w : Workspace η) (s : Script) (text : Except ScriptError String) : Prepared η :=
  if s.isUnchanged text then .skipped
  else
    match text with
    | .error error => .failed (strip w s).1 error
    | .ok source =>
      match (strip w s).1.extract source with
      | (w, .error error) => .failed w error
      | (w, .ok extracted) => .compiled w extracted.behaviour source

/-- Reads the source and prepares the reload from it. -/
def prepare (w : Workspace η) (s : Script) : Prepared η := s.prepareFrom w (w.readSource s.path)

/-- Compiling is no matter of the host. -/
theorem host_prepare {w w' : Workspace η} {s : Script}
    (h : (∃ error, s.prepare w = .failed w' error) ∨ ∃ type source, s.prepare w = .compiled w' type source) :
    w'.host = (strip w s).1.host := by
  unfold prepare prepareFrom at h
  split at h
  · rcases h with ⟨_, h⟩ | ⟨_, _, h⟩ <;> cases h
  · split at h
    · rcases h with ⟨_, h⟩ | ⟨_, _, h⟩ <;> cases h
      rfl
    · next source _ =>
      have hhost := Workspace.host_extract (strip w s).1 source
      split at h
      · next hx =>
        rw [hx] at hhost
        rcases h with ⟨_, h⟩ | ⟨_, _, h⟩ <;> cases h
        exact hhost
      · next hx =>
        rw [hx] at hhost
        rcases h with ⟨_, h⟩ | ⟨_, _, h⟩ <;> cases h
        exact hhost

/-- A reload goes on from its preparation: a failed one keeps all entities in suspension, any
    other gives them to the new type. -/
theorem recompile_eq (w : Workspace η) (s : Script) : recompile w s =
    match s.prepare w with
    | .skipped => (w, s.push (.recompileSkipped s.identity), .ok ())
    | .failed w' error =>
      ((suspendAll w' (strip w s).2 s.roster error).1,
        (suspendAll w' (strip w s).2 s.roster error).2, .error error)
    | .compiled w' type source =>
      ((renew w' (strip w s).2 type source s.roster).1,
        (renew w' (strip w s).2 type source s.roster).2, .ok ()) := by
  unfold recompile recompileFrom prepare prepareFrom
  -- an unchanged source is one that could be read, so this is asked before anything else
  by_cases hsame : s.isUnchanged (w.readSource s.path) = true
  · simp [hsame]
  · cases htext : w.readSource s.path with
    | error error =>
      rw [htext] at hsame
      simp [hsame]
    | ok source =>
      rw [htext] at hsame
      cases hx : (strip w s).1.extract source with
      | mk w' result => cases result <;> simp [hsame, hx]

/-- A script whose signal has been taken. -/
def answered (s : Script) : Script := { s with signal := ⟨false⟩ }

/-- An update is a reload if a change waits for an answer, and nothing otherwise. -/
theorem update_cases (w : Workspace η) (s : Script) :
    (s.discarded = false ∧ s.signal.raised = true ∧ update w s =
      ((recompile w s.answered).1, (recompile w s.answered).2.1, true)) ∨
    ((s.discarded = true ∨ s.signal.raised = false) ∧ update w s = (w, s, false)) := by
  by_cases hd : s.discarded = true
  · have htake : s.takeSignal = (s, false) := if_pos hd
    exact .inr ⟨.inl hd, by simp [update, htake]⟩
  · have htake : s.takeSignal = (s.answered, s.signal.raised) := if_neg hd
    cases hr : s.signal.raised with
    | true => exact .inl ⟨by simpa using hd, rfl, by simp [update, htake, hr]⟩
    | false =>
      -- lowering a signal that is not raised changes nothing
      have hsame : s.answered = s := by rw [answered, ← hr]
      exact .inr ⟨.inr rfl, by simp [update, htake, hr, hsame]⟩

/-! ## Section 5 - what every call keeps

    A call reaches its host in two ways only: it asks for instances, which it notes down,
    and it has some of those removed that it has noted down.  So what these two keep is
    kept by every call. -/

/-- A relation of a script to its host that rests on the attachments alone, all the more on fewer of them,
    and that neither of the two ways can break. -/
structure Steady (R : Workspace η → Script → Prop) : Prop where
  fewer : ∀ {w w' s s'}, R w s → w'.host = w.host → s'.attachments ⊆ s.attachments → R w' s'
  refused : ∀ {w s e type error}, R w s → (w.addBehaviour e type).2 = .error error →
    R (w.addBehaviour e type).1 s
  granted : ∀ {w s e type ref}, R w s → (w.addBehaviour e type).2 = .ok ref →
    R (w.addBehaviour e type).1 (s.link e ref)
  removed : ∀ {w s a}, R w s → a ∈ s.attachments → ∀ t, R (destroyInstance w t a) s

namespace Steady
variable {R : Workspace η → Script → Prop} {w w' : Workspace η} {s s' : Script}

/-- What matters is the host, and what is noted down. -/
theorem same (hR : Steady R) (h : R w s) (hhost : w'.host = w.host)
    (ha : s'.attachments = s.attachments) : R w' s' :=
  hR.fewer h hhost (ha ▸ List.Subset.refl s'.attachments)

theorem attach (hR : Steady R) (h : R w s) (e : Entity) : R (attach w s e).1 (attach w s e).2.1 := by
  rcases attach_cases w s e with ⟨-, heq⟩ | ⟨-, -, heq⟩ | ⟨-, type, ref, -, hr, heq⟩ |
    ⟨-, type, error, line, -, hr, heq⟩ <;> rw [heq]
  · exact h
  · refine hR.same h rfl ?_
    split <;> rfl
  · exact hR.same (hR.granted h hr) rfl rfl
  · exact hR.same (hR.refused h hr) rfl rfl

theorem attachEach (hR : Steady R) (h : R w s) (es : List Entity) :
    R (attachEach w s es).1 (attachEach w s es).2.1 := by
  induction es generalizing w s with
  | nil => exact h
  | cons e es ih => exact ih (hR.attach h e)

theorem detach (hR : Steady R) (h : R w s) (e : Entity) : R (detach w s e).1 (detach w s e).2.1 := by
  rcases detach_cases w s e with ⟨-, heq⟩ | ⟨front, a, back, hsplit, -, -, heq⟩ <;> rw [heq]
  · exact hR.same h rfl rfl
  · have ha : a ∈ s.attachments := by
      rw [hsplit]
      exact List.mem_append_right _ List.mem_cons_self
    have hsub : (front ++ back).Sublist s.attachments := by
      rw [hsplit]
      exact (List.sublist_cons_self a back).append_left front
    exact hR.fewer (hR.removed h ha _) rfl hsub.subset

theorem detachEach (hR : Steady R) (h : R w s) (es : List Entity) :
    R (detachEach w s es).1 (detachEach w s es).2 := by
  induction es generalizing w s with
  | nil => exact h
  | cons e es ih => exact ih (hR.detach h e)

theorem strip (hR : Steady R) (h : R w s) : R (strip w s).1 (strip w s).2 := by
  -- all attachments are given up at the end, so that each is at hand while its instance goes
  suffices hall : ∀ (l : List Attachment) (w : Workspace η), l ⊆ s.attachments → R w s →
      R (l.foldl (fun w a => Script.destroyInstance w s a) w) s from
    hR.fewer (hall s.attachments w (List.Subset.refl _) h) rfl (List.nil_subset _)
  intro l
  induction l with
  | nil => exact fun _ _ h => h
  | cons a rest ih =>
    intro w hsub h
    obtain ⟨ha, hrest⟩ := List.cons_subset.1 hsub
    exact ih _ hrest (hR.removed h ha s)

theorem readd (hR : Steady R) (h : R w s) (type : BehaviourType) (es : List Entity) :
    R (readd w s type es).1 (readd w s type es).2 := by
  induction es generalizing w s with
  | nil => exact h
  | cons e es ih =>
    cases hr : (w.addBehaviour e type).2 with
    | ok ref =>
      rw [readd_cons_of_ok hr]
      exact ih (hR.granted h hr)
    | error error =>
      obtain ⟨line, heq⟩ := readd_cons_of_error hr s es
      rw [heq]
      exact ih (hR.same (hR.refused h hr) rfl rfl)

theorem recompile (hR : Steady R) (h : R w s) : R (recompile w s).1 (recompile w s).2.1 := by
  have hstrip := hR.strip h
  rw [recompile_eq]
  cases hp : s.prepare w with
  | skipped => exact hR.same h rfl rfl
  | failed w' error =>
    have hhost := host_prepare (.inl ⟨error, hp⟩)
    exact hR.same hstrip hhost rfl
  | compiled w' type source =>
    have hhost := host_prepare (.inr ⟨type, source, hp⟩)
    have hready : R w' { (Script.strip w s).2 with
        generation := s.generation + 1, compiled := some type, source := some source } :=
      hR.same hstrip hhost rfl
    exact hR.same (hR.readd hready type s.roster) rfl rfl

theorem call (hR : Steady R) (h : R w s) (c : Call) : R (s.call w c).1 (s.call w c).2 := by
  cases c with
  | attach e => exact hR.attach h e
  | detach e => exact hR.detach h e
  | detachAll =>
    have hcut : R w { s with suspended := [] } := hR.same h rfl rfl
    exact hR.detachEach hcut s.attached
  | reattach =>
    show R (Script.reattach w s).1 (Script.reattach w s).2.1
    unfold Script.reattach
    split
    · exact h
    · have hcut : R w { s with suspended := [] } := hR.same h rfl rfl
      exact hR.attachEach hcut s.suspended
  | requestReload => exact hR.same h rfl rfl
  | update =>
    show R (Script.update w s).1 (Script.update w s).2.1
    rcases update_cases w s with ⟨-, -, heq⟩ | ⟨-, heq⟩ <;> rw [heq]
    · have hanswered : R w s.answered := hR.same h rfl rfl
      exact hR.recompile hanswered
    · exact h
  | recompile => exact hR.recompile h
  | discard => exact hR.same h rfl (discard_fields s).2.1
  | resume =>
    obtain ⟨hhost, -, -, ha, -⟩ := resume_fields w s
    exact hR.same h hhost ha

end Steady

/-- A property of hosts that neither making nor removing an instance can break. -/
structure Lasting (P : η → Prop) : Prop where
  add : ∀ h modules e type, P h → P (Host.addBehaviour h modules e type).host
  destroy : ∀ h r, P h → P (Host.destroyBehaviour h r).1

namespace Lasting
variable {P : η → Prop} {w : Workspace η}

theorem addBehaviour (hP : Lasting P) (h : P w.host) (e : Entity) (type : BehaviourType) :
    P (w.addBehaviour e type).1.host :=
  hP.add w.host w.context.modules e type h

/-- No list of the script has to be known for such a property. -/
theorem steady (hP : Lasting P) : Steady fun (w : Workspace η) (_ : Script) => P w.host where
  fewer := by
    intro w w' s s' h hhost _
    rw [hhost]
    exact h
  refused := fun h _ => hP.addBehaviour h _ _
  granted := fun h _ => hP.addBehaviour h _ _
  removed := by
    intro w s a h _ t
    rw [host_destroyInstance]
    exact hP.destroy w.host a.ref h

theorem strip (hP : Lasting P) (h : P w.host) (s : Script) : P (strip w s).1.host :=
  hP.steady.strip (s := s) h

theorem call (hP : Lasting P) (h : P w.host) (s : Script) (c : Call) : P (s.call w c).1.host :=
  hP.steady.call (s := s) h c

end Lasting

end Script

end HotReload
