import HotReload.Proofs.Script.Calls
import HotReload.Proofs.World.Stage

/-! # What the calls of a script spare

    A call removes instances by the numbers that its script has noted down, and makes new
    ones under numbers that nobody has had.  Names of types play no part in either.  So
    every instance that was there before the call, and whose number the script had not
    noted down, is *spared*: it is still there, just as it was, and in the same order
    with all others that are.

    What is spared is told by a test on numbers, and the stage before the call is kept in
    view while the call goes on.  It is enough to look at a single request and at a single
    removal, since no call does anything else (`Steady`). -/

namespace HotReload

/-! ## Section 1 - tests on numbers -/

/-- The instances on an entity whose numbers pass a test, in the order in which they run. -/
def World.passing (w : World) (p : Nat → Bool) (e : Entity) : List Instance :=
  (w.instancesOn e).filter fun i => p i.id

namespace World
variable {w : World} {p : Nat → Bool}

theorem passing_addInstance (h : w.Sound) {e : Entity} (hc : w.contains e = true) {i : Instance}
    (hi : p i.id = false) (e' : Entity) : (w.addInstance e i).passing p e' = w.passing p e' := by
  unfold passing
  rw [instancesOn_addInstance h hc]
  by_cases he : e' = e
  · rw [if_pos he, List.filter_append, List.filter_cons_of_neg (by simp [hi])]
    exact List.append_nil _
  · rw [if_neg he]

theorem passing_removeInstance (h : w.Sound) {r : InstanceRef} (hr : p r.id = false) (e : Entity) :
    (w.removeInstance r).passing p e = w.passing p e := by
  unfold passing
  rw [instancesOn_removeInstance h]
  by_cases he : e = r.entity
  · rw [if_pos he, List.filter_filter]
    apply List.filter_congr
    intro i _
    -- an instance that passes the test has another number than the one that goes
    by_cases hi : i.id = r.id
    · rw [hi, hr, Bool.false_and]
    · simp [hi]
  · rw [if_neg he]

end World

namespace Script

/-- The numbers that a script has noted down. -/
def ids (s : Script) : List Nat := s.attachments.map fun a => a.ref.id

theorem ids_link (s : Script) (e : Entity) (ref : InstanceRef) : (s.link e ref).ids = s.ids ++ [ref.id] := by
  simp [ids, link]

theorem id_mem_ids {s : Script} {a : Attachment} (ha : a ∈ s.attachments) : a.ref.id ∈ s.ids :=
  List.mem_map_of_mem ha

/-! ## Section 2 - the invariant of a call -/

/-- How far a call has come that began at a stage, by a script with some numbers. -/
structure Sparing (stage : Stage) (ids : List Nat) (w : Workspace Stage) (s : Script) : Prop where
  sound : w.host.world.Sound
  later : stage.nextInstance ≤ w.host.nextInstance
  below : ∀ id ∈ s.ids, id < w.host.nextInstance
  /-- The script has its numbers from before, or they are new. -/
  own : ∀ id ∈ s.ids, id ∈ ids ∨ stage.nextInstance ≤ id
  spared : ∀ p : Nat → Bool, (∀ id, p id = true → id < stage.nextInstance ∧ id ∉ ids) →
    ∀ e, w.host.world.passing p e = stage.world.passing p e

namespace Sparing
variable {stage : Stage} {ids : List Nat} {w w' : Workspace Stage} {s s' : Script}

theorem start (hsound : w.host.world.Sound) (hbelow : ∀ id ∈ s.ids, id < w.host.nextInstance) :
    Sparing w.host s.ids w s where
  sound := hsound
  later := Nat.le_refl _
  below := hbelow
  own := fun _ hid => .inl hid
  spared := fun _ _ _ => rfl

/-- What matters is the host, and which numbers are noted down. -/
theorem congr (h : Sparing stage ids w s) (hhost : w'.host = w.host) (hids : s'.ids ⊆ s.ids) :
    Sparing stage ids w' s' where
  sound := hhost ▸ h.sound
  later := hhost ▸ h.later
  below := fun id hid => hhost ▸ h.below id (hids hid)
  own := fun id hid => h.own id (hids hid)
  spared := hhost ▸ h.spared

/-- A number that may not be removed is none that a test on the spared ones passes. -/
theorem not_passing {p : Nat → Bool} (hp : ∀ id, p id = true → id < stage.nextInstance ∧ id ∉ ids)
    {id : Nat} (hid : id ∈ ids ∨ stage.nextInstance ≤ id) : p id = false := by
  by_contra hpass
  rw [Bool.not_eq_false] at hpass
  obtain ⟨hlt, hnot⟩ := hp id hpass
  rcases hid with hmem | hle
  · exact hnot hmem
  · omega

/-- A request that is refused changes no instance. -/
theorem refused (h : Sparing stage ids w s) {e : Entity} {type : BehaviourType} {error : HostError}
    (hr : (w.addBehaviour e type).2 = .error error) : Sparing stage ids (w.addBehaviour e type).1 s := by
  have hhost : (w.addBehaviour e type).1.host = (w.host.addBehaviour w.context.modules e type).host := rfl
  have hresult : (w.host.addBehaviour w.context.modules e type).result = .error error := hr
  rcases w.host.addBehaviour_cases w.context.modules e type with ⟨-, heq⟩ | ⟨-, fault, printed, -, heq⟩ |
    ⟨-, fields, printed, -, heq⟩ <;> rw [heq] at hhost hresult
  · exact h.congr hhost (List.Subset.refl _)
  · have hworld : (w.addBehaviour e type).1.host.world = w.host.world := by
      rw [hhost, Stage.world_sync]
    have hnext : (w.addBehaviour e type).1.host.nextInstance = w.host.nextInstance := by
      rw [hhost, Stage.nextInstance_sync]
    exact ⟨hworld ▸ h.sound, hnext ▸ h.later, hnext ▸ h.below, h.own, hworld ▸ h.spared⟩
  · cases hresult

/-- An instance that is made has a new number. -/
theorem granted (h : Sparing stage ids w s) {e : Entity} {type : BehaviourType} {ref : InstanceRef}
    (hr : (w.addBehaviour e type).2 = .ok ref) :
    Sparing stage ids (w.addBehaviour e type).1 (s.link e ref) := by
  have hhost : (w.addBehaviour e type).1.host = (w.host.addBehaviour w.context.modules e type).host := rfl
  have hresult : (w.host.addBehaviour w.context.modules e type).result = .ok ref := hr
  rcases w.host.addBehaviour_cases w.context.modules e type with ⟨-, heq⟩ | ⟨-, fault, printed, -, heq⟩ |
    ⟨hc, fields, printed, -, heq⟩ <;> rw [heq] at hhost hresult <;> cases hresult
  have hlater := h.later
  constructor
  · rw [hhost]
    exact h.sound.addInstance e _
  · rw [hhost]
    exact Nat.le_succ_of_le hlater
  · intro id hid
    rw [ids_link] at hid
    show id < (w.addBehaviour e type).1.host.nextInstance
    rw [hhost]
    rcases List.mem_append.1 hid with hold | hnew
    · exact Nat.lt_succ_of_lt (h.below id hold)
    · rw [List.mem_singleton.1 hnew]
      exact Nat.lt_succ_self _
  · intro id hid
    rw [ids_link] at hid
    rcases List.mem_append.1 hid with hold | hnew
    · exact h.own id hold
    · rw [List.mem_singleton.1 hnew]
      exact .inr hlater
  · intro p hp e'
    rw [hhost, ← h.spared p hp e']
    exact World.passing_addInstance h.sound hc (not_passing hp (.inr hlater)) e'

/-- An instance that is removed has a number that the script has noted down. -/
theorem removed (h : Sparing stage ids w s) {a : Attachment} (ha : a ∈ s.attachments) (t : Script) :
    Sparing stage ids (destroyInstance w t a) s := by
  have hhost : (destroyInstance w t a).host = (w.host.destroyBehaviour a.ref).1 :=
    host_destroyInstance w t a
  rcases w.host.destroyBehaviour_cases a.ref with ⟨-, heq⟩ | ⟨-, heq⟩ <;> rw [heq] at hhost
  · exact h.congr hhost (List.Subset.refl _)
  · constructor
    · rw [hhost]
      exact h.sound.removeInstance a.ref
    · rw [hhost]
      exact h.later
    · rw [hhost]
      exact h.below
    · exact h.own
    · intro p hp e
      rw [hhost, ← h.spared p hp e]
      exact World.passing_removeInstance h.sound (not_passing hp (h.own _ (id_mem_ids ha))) e

theorem steady (stage : Stage) (ids : List Nat) : Steady (Sparing stage ids) where
  fewer := fun h hhost ha => h.congr hhost (List.map_subset _ ha)
  refused := fun h hr => h.refused hr
  granted := fun h hr => h.granted hr
  removed := fun h ha t => h.removed ha t

/-- Whatever call is made, and whatever comes of it. -/
theorem call (h : Sparing stage ids w s) (c : Call) : Sparing stage ids (s.call w c).1 (s.call w c).2 :=
  (steady stage ids).call h c

end Sparing

end Script

end HotReload
