import HotReload.Proofs.HostedScripts.Actions
import HotReload.Proofs.Script.Roster
import HotReload.Proofs.World.Marks

/-! # What a script holds of a stage

    The attachments of a script are marks of its type.  A script *holds* them if,
    together with the marks of all other scripts, they match the stage.  The other
    scripts are no more than a list of marks here, which no call of this script touches:
    so every call is looked at for one script alone, whatever the others do.

    A call takes attachments away and adds new ones, each time one at a time, and in step
    with the stage.  This is also true within a reload, where the script is without a
    type for a while. -/

namespace HotReload

namespace Script

/-! ## Section 1 - marks of a script -/

/-- The mark of an attachment to a type. -/
def markOf (type : BehaviourType) (a : Attachment) : Stage.Mark := ⟨a.entity, a.ref.id, type⟩

/-- The marks of a script.  Without a type it has none. -/
def marks (s : Script) : List Stage.Mark :=
  match s.compiled with
  | none => []
  | some type => s.attachments.map (markOf type)

theorem marks_of_some {s : Script} {type : BehaviourType} (h : s.compiled = some type) :
    s.marks = s.attachments.map (markOf type) := by
  simp [marks, h]

theorem marks_of_none {s : Script} (h : s.compiled = none) : s.marks = [] := by
  simp [marks, h]

theorem marks_of_nil {s : Script} (h : s.attachments = []) : s.marks = [] := by
  unfold marks
  split <;> simp [h]

/-- The marks are read from two fields. -/
theorem marks_congr {s s' : Script} (hc : s'.compiled = s.compiled)
    (ha : s'.attachments = s.attachments) : s'.marks = s.marks := by
  simp [marks, hc, ha]

theorem marks_link {s : Script} {type : BehaviourType} (h : s.compiled = some type) (e : Entity)
    (ref : InstanceRef) : (s.link e ref).marks = s.marks ++ [⟨e, ref.id, type⟩] := by
  have hl : (s.link e ref).compiled = some type := h
  rw [marks_of_some h, marks_of_some hl]
  simp [link, markOf]

/-- Every attachment refers to an instance on its own entity. -/
def Straight (s : Script) : Prop := ∀ a ∈ s.attachments, a.ref.entity = a.entity

theorem Straight.link {s : Script} (h : s.Straight) {e : Entity} {ref : InstanceRef}
    (href : ref.entity = e) : (s.link e ref).Straight := by
  intro a ha
  rcases List.mem_append.1 ha with hold | hnew
  · exact h a hold
  · rw [List.mem_singleton.1 hnew]
    exact href

/-- What a script holds of a stage, beside the marks of others. -/
structure Holds (s : Script) (stage : Stage) (others : List Stage.Mark) : Prop where
  straight : s.Straight
  matched : Matches stage (s.marks ++ others)

namespace Holds
variable {s : Script} {stage : Stage} {others : List Stage.Mark}

theorem congr {s' : Script} {stage' : Stage} (h : s.Holds stage others)
    (hc : s'.compiled = s.compiled) (ha : s'.attachments = s.attachments) (hstage : stage' = stage) :
    s'.Holds stage' others where
  straight := by
    unfold Straight
    rw [ha]
    exact h.straight
  matched := by
    rw [marks_congr hc ha, hstage]
    exact h.matched

/-- A script without attachments has nothing to hold. -/
theorem of_nil (ha : s.attachments = []) (h : Matches stage others) : s.Holds stage others where
  straight := by simp [Straight, ha]
  matched := by simpa [marks_of_nil ha] using h

theorem release (h : s.Holds stage others) (ha : s.attachments = []) : Matches stage others := by
  simpa [marks_of_nil ha] using h.matched

end Holds

/-! ## Section 2 - one instance -/

section one
variable {w : Workspace Stage} {s : Script} {others : List Stage.Mark}

/-- A request for an instance comes to nothing, or to one more attachment. -/
theorem Holds.addBehaviour {type : BehaviourType} (h : s.Holds w.host others)
    (hc : s.compiled = some type) (e : Entity) :
    (∃ error, (w.addBehaviour e type).2 = .error error ∧
      s.Holds (w.addBehaviour e type).1.host others) ∨
    (∃ ref, (w.addBehaviour e type).2 = .ok ref ∧ ref.id = w.host.nextInstance ∧
      (s.link e ref).Holds (w.addBehaviour e type).1.host others) := by
  rcases h.matched.addBehaviour w.context.modules e type with ⟨error, hr, hm⟩ | ⟨hr, hm⟩
  · exact .inl ⟨error, hr, h.straight, hm⟩
  · refine .inr ⟨⟨e, w.host.nextInstance⟩, hr, rfl, h.straight.link rfl, ?_⟩
    rw [marks_link hc]
    refine Matches.perm hm ?_
    rw [List.append_assoc, List.append_assoc]
    exact List.perm_append_comm.append_left s.marks

/-- An attachment is taken away together with its instance. -/
theorem Holds.destroyInstance {front back : List Attachment} {a : Attachment}
    (h : s.Holds w.host others) (hc : s.compiled.isSome) (hsplit : s.attachments = front ++ a :: back)
    (t s' : Script) (hc' : s'.compiled = s.compiled) (ha' : s'.attachments = front ++ back) :
    s'.Holds (destroyInstance w t a).host others := by
  obtain ⟨type, htype⟩ := Option.isSome_iff_exists.1 hc
  have hmem : ∀ b ∈ front ++ back, b ∈ s.attachments := by
    intro b hb
    rw [hsplit]
    rcases List.mem_append.1 hb with hf | hb
    · exact List.mem_append_left _ hf
    · exact List.mem_append_right _ (List.mem_cons_of_mem a hb)
  have href : a.ref = ⟨a.entity, a.ref.id⟩ := by
    have hra : a.ref.entity = a.entity := h.straight a (by simp [hsplit])
    rw [← hra]
  constructor
  · intro b hb
    rw [ha'] at hb
    exact h.straight b (hmem b hb)
  · rw [host_destroyInstance, marks_of_some (hc'.trans htype), ha', href]
    -- the mark of the attachment comes first, then it can be given up
    refine Matches.destroyBehaviour (m := markOf type a) (Matches.perm h.matched ?_)
    rw [marks_of_some htype, hsplit, List.map_append, List.map_cons, List.map_append]
    exact (List.perm_middle).append_right others

end one

/-! ## Section 3 - reloads -/

section reloads
variable {w : Workspace Stage} {s : Script} {others : List Stage.Mark}

theorem strip_matches (h : s.Holds w.host others) (hs : s.Settled) :
    Matches (strip w s).1.host others := by
  cases hc : s.compiled with
  | none => simpa [strip, hs.waiting hc] using h.release (hs.waiting hc)
  | some type =>
    -- the attachments go one after the other, whoever reports it
    suffices hall : ∀ (t : Script) (w : Workspace Stage) (s : Script), s.compiled = some type →
        s.Holds w.host others →
        Matches (s.attachments.foldl (fun w a => Script.destroyInstance w t a) w).host others from
      hall s w s hc h
    intro t w s hc h
    induction hrest : s.attachments generalizing w s with
    | nil => exact h.release hrest
    | cons a rest ih =>
      have hsplit : s.attachments = [] ++ a :: rest := hrest
      have hnext := h.destroyInstance (by simp [hc]) hsplit t { s with attachments := rest } rfl rfl
      exact ih (Script.destroyInstance w t a) { s with attachments := rest } hc hnext rfl

/-- Taking the instances of a script away changes nothing of the stage but its world. -/
theorem host_strip (w : Workspace Stage) (s : Script) :
    ∃ world, (strip w s).1.host = { w.host with world := world } := by
  suffices hall : ∀ (l : List Attachment) (w : Workspace Stage),
      ∃ world, (l.foldl (fun w a => Script.destroyInstance w s a) w).host = { w.host with world := world } from
    hall s.attachments w
  intro l
  induction l with
  | nil => exact fun w => ⟨w.host.world, rfl⟩
  | cons a rest ih =>
    intro w
    obtain ⟨world, hrest⟩ := ih (Script.destroyInstance w s a)
    have hfirst : (Script.destroyInstance w s a).host = (w.host.destroyBehaviour a.ref).1 :=
      host_destroyInstance w s a
    refine ⟨world, hrest.trans ?_⟩
    rw [hfirst]
    rcases w.host.destroyBehaviour_cases a.ref with ⟨-, heq⟩ | ⟨-, heq⟩ <;> rw [heq]

@[simp] theorem nextInstance_strip (w : Workspace Stage) (s : Script) :
    (strip w s).1.host.nextInstance = w.host.nextInstance := by
  obtain ⟨world, hhost⟩ := host_strip w s
  rw [hhost]

/-- What is made for a new type has numbers that no instance had before. -/
theorem readd_holds {type : BehaviourType} (h : s.Holds w.host others) (hc : s.compiled = some type)
    (es : List Entity) :
    (readd w s type es).2.Holds (readd w s type es).1.host others ∧
    ∀ a ∈ (readd w s type es).2.attachments, a ∈ s.attachments ∨ w.host.nextInstance ≤ a.ref.id := by
  -- each request starts from the stage that the ones before it left, and numbers only grow
  induction es generalizing w s with
  | nil => exact ⟨h, fun a ha => .inl ha⟩
  | cons e es ih =>
    have hgrow : w.host.nextInstance ≤ (w.addBehaviour e type).1.host.nextInstance :=
      w.host.le_nextInstance_addBehaviour w.context.modules e type
    rcases h.addBehaviour hc e with ⟨error, hr, hm⟩ | ⟨ref, hr, hid, hm⟩
    · obtain ⟨line, heq⟩ := readd_cons_of_error hr s es
      have hsaid : s.Holds ((w.addBehaviour e type).1.say line).host others := hm
      obtain ⟨hholds, hids⟩ := ih hsaid hc
      rw [heq]
      refine ⟨hholds, fun a ha => ?_⟩
      exact (hids a ha).imp_right fun hle => Nat.le_trans hgrow hle
    · obtain ⟨hholds, hids⟩ := ih hm (s := s.link e ref) hc
      rw [readd_cons_of_ok hr]
      refine ⟨hholds, fun a ha => ?_⟩
      rcases hids a ha with hold | hle
      · rcases List.mem_append.1 hold with hold | hnew
        · exact .inl hold
        · right
          rw [List.mem_singleton.1 hnew]
          exact Nat.le_of_eq hid.symm
      · exact .inr (Nat.le_trans hgrow hle)

end reloads

/-! ## Section 4 - calls -/

section calls
variable {w : Workspace Stage} {s : Script} {others : List Stage.Mark}

theorem Holds.attach (h : s.Holds w.host others) (e : Entity) :
    (attach w s e).2.1.Holds (attach w s e).1.host others := by
  rcases attach_cases w s e with ⟨-, heq⟩ | ⟨-, -, heq⟩ | ⟨-, type, ref, hc, hr, heq⟩ |
    ⟨-, type, error, line, hc, hr, heq⟩ <;> rw [heq]
  · exact h
  · by_cases hmem : e ∈ s.suspended
    · simpa [hmem] using h
    · simp only [hmem, if_false]
      exact h.congr rfl rfl rfl
  · rcases h.addBehaviour hc e with ⟨error, hr', -⟩ | ⟨ref', hr', -, hm⟩
    · rw [hr'] at hr
      cases hr
    · rw [hr'] at hr
      cases hr
      exact hm.congr rfl rfl rfl
  · rcases h.addBehaviour hc e with ⟨error', -, hm⟩ | ⟨ref, hr', -, -⟩
    · exact hm
    · rw [hr'] at hr
      cases hr

theorem Holds.detach (h : s.Holds w.host others) (hs : s.Settled) (e : Entity) :
    (detach w s e).2.1.Holds (detach w s e).1.host others := by
  rcases detach_cases w s e with ⟨-, heq⟩ | ⟨front, a, back, hsplit, -, -, heq⟩ <;> rw [heq]
  · exact h.congr rfl rfl rfl
  · obtain ⟨type, hc⟩ := hs.compiled_of_mem (a := a) (by simp [hsplit])
    exact h.destroyInstance (by simp [hc]) hsplit _ ((s.forget e (front ++ back)).push _) rfl rfl

theorem Holds.detachEach (h : s.Holds w.host others) (hs : s.Settled) (es : List Entity) :
    (detachEach w s es).2.Holds (detachEach w s es).1.host others := by
  induction es generalizing w s with
  | nil => exact h
  | cons e es ih => exact ih (h.detach hs e) (hs.detach w e).2.1

/-- The attachments after a reload are all new. -/
theorem Holds.recompile (h : s.Holds w.host others) (hs : s.Settled) :
    (recompile w s).2.1.Holds (recompile w s).1.host others ∧
    (s.isUnchanged (w.readSource s.path) = false →
      ∀ a ∈ (recompile w s).2.1.attachments, w.host.nextInstance ≤ a.ref.id) := by
  -- once all instances are taken away, the stage matches the marks of the others alone
  have hstrip := strip_matches h hs
  rcases prepare_cases w s with ⟨hsame, hp, -⟩ | ⟨hchanged, w', error, hp, -⟩ |
    ⟨hchanged, w', type, source, hp, -⟩ <;> rw [recompile_eq, hp]
  · refine ⟨h.congr rfl rfl rfl, fun hchanged => ?_⟩
    rw [hsame] at hchanged
    cases hchanged
  · have hhost := host_prepare (.inl ⟨error, hp⟩)
    rw [← hhost] at hstrip
    exact ⟨.of_nil rfl hstrip, fun _ a ha => by cases ha⟩
  · have hhost := host_prepare (.inr ⟨type, source, hp⟩)
    rw [← hhost] at hstrip
    obtain ⟨hholds, hids⟩ := readd_holds (w := w') (s := { (strip w s).2 with
      generation := s.generation + 1, compiled := some type, source := some source })
      (.of_nil rfl hstrip) rfl s.roster
    refine ⟨hholds.congr rfl rfl rfl, fun _ a ha => ?_⟩
    rcases hids a ha with hold | hle
    · cases hold
    · rwa [hhost, nextInstance_strip] at hle

/-- Every call keeps hold of what there is. -/
theorem Holds.call (h : s.Holds w.host others) (hs : s.Settled) (c : Call) :
    (s.call w c).2.Holds (s.call w c).1.host others := by
  cases c with
  | attach e => exact h.attach e
  | detach e => exact h.detach hs e
  | detachAll =>
    have hcut : Holds { s with suspended := [] } w.host others := h.congr rfl rfl rfl
    exact hcut.detachEach hs.withoutWaiting s.attached
  | reattach =>
    show (Script.reattach w s).2.1.Holds (Script.reattach w s).1.host others
    rw [hs.reattach_eq w]
    exact h
  | requestReload => exact h.congr rfl rfl rfl
  | update =>
    show (Script.update w s).2.1.Holds (Script.update w s).1.host others
    rcases update_cases w s with ⟨-, -, heq⟩ | ⟨-, heq⟩ <;> rw [heq]
    · have hanswered : s.answered.Holds w.host others := h.congr rfl rfl rfl
      exact (hanswered.recompile (hs.congr rfl rfl rfl)).1
    · exact h
  | recompile => exact (h.recompile hs).1
  | discard =>
    obtain ⟨hc, ha, -⟩ := discard_fields s
    exact h.congr hc ha rfl
  | resume =>
    obtain ⟨hhost, -, hc, ha, -⟩ := resume_fields w s
    exact h.congr hc ha hhost

/-- Where the source has changed, a reload leaves none of the instances that the script had. -/
theorem Holds.recompile_gone (h : s.Holds w.host others) (hs : s.Settled)
    (hchanged : s.isUnchanged (w.readSource s.path) = false) {a : Attachment} (ha : a ∈ s.attachments)
    {e : Entity} {tag : Nat × BehaviourType} (htag : tag ∈ (Script.recompile w s).1.host.world.tagsOn e) :
    tag.1 ≠ a.ref.id := by
  obtain ⟨hafter, hnew⟩ := h.recompile hs
  obtain ⟨type, hc⟩ := hs.compiled_of_mem ha
  have hmark : markOf type a ∈ s.marks := by
    rw [marks_of_some hc]
    exact List.mem_map_of_mem ha
  obtain ⟨m, hm, -, rfl⟩ := hafter.matched.mem_of_tag htag
  rcases List.mem_append.1 hm with hown | hother
  · -- an instance of the new type has a later number
    have hlt : a.ref.id < w.host.nextInstance := h.matched.below _ (List.mem_append_left _ hmark)
    cases hc' : (Script.recompile w s).2.1.compiled with
    | none => simp [marks_of_none hc'] at hown
    | some type' =>
      rw [marks_of_some hc'] at hown
      obtain ⟨b, hb, rfl⟩ := List.mem_map.1 hown
      have hle : w.host.nextInstance ≤ b.ref.id := hnew hchanged b hb
      exact Nat.ne_of_gt (Nat.lt_of_lt_of_le hlt hle)
  · -- an instance of another script had another number before
    intro hid
    have hids := h.matched.ids
    rw [List.map_append] at hids
    have hapart := (List.nodup_append.1 hids).2.2
    exact hapart _ (List.mem_map_of_mem hmark) _ (List.mem_map_of_mem hother) hid.symm

theorem Holds.reload_gone (h : s.Holds w.host others) (hs : s.Settled) {c : Call}
    (hc : s.reloads w c = true) {a : Attachment} (ha : a ∈ s.attachments) {e : Entity}
    {tag : Nat × BehaviourType} (htag : tag ∈ (s.call w c).1.host.world.tagsOn e) : tag.1 ≠ a.ref.id := by
  cases c with
  | recompile => exact h.recompile_gone hs (by simpa [reloads] using hc) ha htag
  | update =>
    simp only [reloads, Bool.and_eq_true, Bool.not_eq_true'] at hc
    obtain ⟨⟨hserving, hraised⟩, hchanged⟩ := hc
    have hanswered : s.answered.Holds w.host others := h.congr rfl rfl rfl
    refine hanswered.recompile_gone (hs.congr rfl rfl rfl) hchanged ha (e := e) ?_
    rcases update_cases w s with ⟨-, -, heq⟩ | ⟨hidle, -⟩
    · have htag' : tag ∈ (Script.update w s).1.host.world.tagsOn e := htag
      rwa [heq] at htag'
    · rcases hidle with hd | hr
      · rw [hserving] at hd
        cases hd
      · rw [hraised] at hr
        cases hr
  | _ => cases hc

end calls

end Script

end HotReload
