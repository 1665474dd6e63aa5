import HotReload.Proofs.World.Stage
import Mathlib.Data.List.Perm.Basic

/-! # Marks: what a stage is said to carry

    Whoever has asked a stage for instances remembers them by *marks*: the entity, the
    number and the type.  A list of marks matches a stage if, on every entity that is
    alive, the marks and the instances are the same up to order.  Marks on entities
    that are gone are allowed, because nobody tells those who hold them.

    The order of the marks does not matter, and neither does who holds which of them.
    So the theory of scripts, each of which holds a part of the marks, needs two facts
    alone: a mark can be added together with its instance, and taken away with it. -/

namespace HotReload

/-- What is remembered of an instance. -/
structure Stage.Mark where
  entity : Entity
  id : Nat
  type : BehaviourType

/-- A mark without its entity. -/
def Stage.Mark.tag (m : Stage.Mark) : Nat × BehaviourType := (m.id, m.type)

/-! ## Section 1 - the invariant -/

/-- The marks are those of the instances on the stage, as far as their entities are alive. -/
structure Matches (s : Stage) (marks : List Stage.Mark) : Prop where
  sound : s.world.Sound
  /-- A mark is on an entity that the world has handed out, so no later entity is taken for it. -/
  issued : ∀ m ∈ marks, s.world.Issued m.entity
  /-- The number of the next instance is on no mark yet. -/
  below : ∀ m ∈ marks, m.id < s.nextInstance
  ids : (marks.map Stage.Mark.id).Nodup
  balance : ∀ e, s.world.contains e = true →
    (s.world.tagsOn e).Perm ((marks.filter fun m => m.entity = e).map Stage.Mark.tag)

namespace Matches
variable {s : Stage} {marks : List Stage.Mark}

theorem perm {marks' : List Stage.Mark} (h : Matches s marks) (hperm : marks.Perm marks') :
    Matches s marks' where
  sound := h.sound
  issued := fun m hm => h.issued m (hperm.mem_iff.2 hm)
  below := fun m hm => h.below m (hperm.mem_iff.2 hm)
  ids := (hperm.map Stage.Mark.id).nodup_iff.1 h.ids
  balance := fun e he => (h.balance e he).trans ((hperm.filter _).map Stage.Mark.tag)

/-- Every instance is known by a mark. -/
theorem mem_of_tag (h : Matches s marks) {e : Entity} {tag : Nat × BehaviourType}
    (htag : tag ∈ s.world.tagsOn e) : ∃ m ∈ marks, m.entity = e ∧ m.tag = tag := by
  have hc : s.world.contains e = true := by
    by_contra hgone
    rw [World.tagsOn_of_not_contains (by simpa using hgone)] at htag
    cases htag
  obtain ⟨m, hm, rfl⟩ := List.mem_map.1 ((h.balance e hc).mem_iff.1 htag)
  exact ⟨m, (List.mem_filter.1 hm).1, by simpa using (List.mem_filter.1 hm).2, rfl⟩

/-- Every mark on an entity that is alive is that of an instance. -/
theorem tag_of_mem (h : Matches s marks) {m : Stage.Mark} (hm : m ∈ marks)
    (hc : s.world.contains m.entity = true) : m.tag ∈ s.world.tagsOn m.entity :=
  (h.balance _ hc).mem_iff.2 (List.mem_map_of_mem (List.mem_filter.2 ⟨hm, by simp⟩))

/-- No number comes twice on an entity. -/
theorem nodup_tags (h : Matches s marks) (e : Entity) :
    ((s.world.tagsOn e).map Prod.fst).Nodup := by
  cases hc : s.world.contains e with
  | false => simp [World.tagsOn_of_not_contains hc]
  | true =>
    rw [((h.balance e hc).map Prod.fst).nodup_iff, List.map_map]
    exact h.ids.sublist ((List.filter_sublist).map Stage.Mark.id)

/-- Two marks of one number are the same. -/
theorem eq_of_id (h : Matches s marks) {m m' : Stage.Mark} (hm : m ∈ marks) (hm' : m' ∈ marks)
    (hid : m.id = m'.id) : m = m' :=
  List.inj_on_of_nodup_map h.ids hm hm' hid

end Matches

/-- An empty stage carries nothing. -/
theorem matches_empty : Matches {} [] where
  sound := World.sound_empty
  issued := by simp
  below := by simp
  ids := by simp
  balance := by
    intro e he
    simp [World.contains, World.being?, World.beings] at he

/-! ## Section 2 - changes that concern no instance -/

namespace Matches
variable {s s' : Stage} {marks : List Stage.Mark}

/-- It is the world and the next number that count. -/
theorem congr (h : Matches s marks) (hworld : s'.world = s.world)
    (hnext : s'.nextInstance = s.nextInstance) : Matches s' marks where
  sound := hworld ▸ h.sound
  issued := by rw [hworld]; exact h.issued
  below := by rw [hnext]; exact h.below
  ids := h.ids
  balance := by rw [hworld]; exact h.balance

theorem sync (h : Matches s marks) (modules : ModuleSet) : Matches (s.sync modules) marks :=
  h.congr (s.world_sync modules) (s.nextInstance_sync modules)

theorem follow (h : Matches s marks) (modules : ModuleSet) : Matches (s.follow modules) marks :=
  h.congr (s.world_follow modules) (s.nextInstance_follow modules)

theorem tick (h : Matches s marks) (modules : ModuleSet) (dt : Float32) :
    Matches (s.tick modules dt).value marks := by
  have hworld := s.world_tick modules dt
  have hentity : ∀ b : Being, (b.tick (s.sync modules).engine dt).value.entity = b.entity :=
    fun b => b.tick_entity _ dt
  constructor
  · rw [hworld]
    exact h.sound.mapBeings hentity
  · rw [hworld]
    exact h.issued
  · rw [Stage.nextInstance_tick]
    exact h.below
  · exact h.ids
  · intro e he
    rw [hworld] at he ⊢
    rw [World.contains_mapBeings hentity] at he
    rw [World.tagsOn_mapBeings hentity (fun b => b.tick_tags _ dt)]
    exact h.balance e he

theorem spawnNamed (h : Matches s marks) (name : String) : Matches (s.spawnNamed name).1 marks where
  sound := h.sound.spawn _ _
  issued := fun m hm => (h.issued m hm).spawn _ _
  below := h.below
  ids := h.ids
  balance := by
    intro e he
    show ((s.world.spawn (some name) (some [])).1.tagsOn e).Perm _
    rw [World.tagsOn_spawn h.sound (some name) rfl e]
    have he' : decide (e = (s.world.spawn (some name) (some [])).2) = true ∨
        s.world.contains e = true := by
      rw [← Bool.or_eq_true, ← World.contains_spawn h.sound (some name) (some []) e]
      exact he
    rcases he' with hnew | hold
    · -- no mark is on an entity that has just been made
      have hnone : (marks.filter fun m => m.entity = e) = [] := by
        rw [List.filter_eq_nil_iff]
        intro m hm hme
        have hfresh := World.not_issued_spawn (some name) (some []) h.sound
        rw [← of_decide_eq_true hnew, ← of_decide_eq_true hme] at hfresh
        exact hfresh (h.issued m hm)
      have hgone : s.world.contains e = false := by
        by_contra hc
        rw [Bool.not_eq_false] at hc
        have hfresh := World.not_issued_spawn (some name) (some []) h.sound
        rw [← of_decide_eq_true hnew] at hfresh
        exact hfresh (h.sound.issued hc)
      rw [World.tagsOn_of_not_contains hgone, hnone]
      exact .nil
    · exact h.balance e hold

theorem despawn (h : Matches s marks) (e : Entity) : Matches (s.despawn e).1 marks where
  sound := h.sound.despawn e
  issued := fun m hm => (h.issued m hm).despawn e h.sound
  below := h.below
  ids := h.ids
  balance := by
    intro e' he'
    have hboth : (!decide (e' = e) && s.world.contains e') = true := by
      rw [← World.contains_despawn h.sound e e']
      exact he'
    obtain ⟨hne, hc⟩ := Bool.and_eq_true_iff.1 hboth
    show ((s.world.despawn e).1.tagsOn e').Perm _
    rw [World.tagsOn_despawn h.sound, if_neg (by simpa using hne)]
    exact h.balance e' hc

end Matches

/-! ## Section 3 - making and removing instances -/

namespace Matches
variable {s : Stage} {marks : List Stage.Mark}

/-- An instance that is made is a new mark, and a refusal is none. -/
theorem addBehaviour (h : Matches s marks) (modules : ModuleSet) (e : Entity) (type : BehaviourType) :
    (∃ error, (s.addBehaviour modules e type).result = .error error ∧
      Matches (s.addBehaviour modules e type).host marks) ∨
    ((s.addBehaviour modules e type).result = .ok ⟨e, s.nextInstance⟩ ∧
      Matches (s.addBehaviour modules e type).host (marks ++ [⟨e, s.nextInstance, type⟩])) := by
  rcases s.addBehaviour_cases modules e type with ⟨-, heq⟩ | ⟨-, fault, printed, -, heq⟩ |
    ⟨hc, fields, printed, -, heq⟩ <;> rw [heq]
  · exact .inl ⟨_, rfl, h⟩
  · exact .inl ⟨_, rfl, h.sync modules⟩
  · refine .inr ⟨rfl, ?_⟩
    constructor
    · exact h.sound.addInstance e _
    · intro m hm
      rcases List.mem_append.1 hm with hold | hnew
      · exact (h.issued m hold).addInstance _
      · rw [List.mem_singleton.1 hnew]
        exact (h.sound.issued hc).addInstance _
    · intro m hm
      show m.id < s.nextInstance + 1
      rcases List.mem_append.1 hm with hold | hnew
      · exact Nat.lt_succ_of_lt (h.below m hold)
      · rw [List.mem_singleton.1 hnew]
        exact Nat.lt_succ_self _
    · -- All marks lie below the next number, which is why the new one repeats none.
      rw [List.map_append]
      refine h.ids.append (List.nodup_singleton _) ?_
      intro id hid hnew
      obtain ⟨m, hm, rfl⟩ := List.mem_map.1 hid
      exact absurd (List.mem_singleton.1 hnew) (Nat.ne_of_lt (h.below m hm))
    · intro e' he'
      show ((s.world.addInstance e ⟨s.nextInstance, type, fields, false⟩).tagsOn e').Perm _
      rw [World.tagsOn_addInstance h.sound hc]
      have hold := h.balance e' (by simpa [h.sound] using he')
      by_cases hee : e' = e
      · subst hee
        simpa [Stage.Mark.tag] using hold.append_right [(s.nextInstance, type)]
      · have hne : ¬ e = e' := fun heq => hee heq.symm
        simpa [hee, hne] using hold

/-- A mark that is given up goes with its instance. -/
theorem destroyBehaviour {m : Stage.Mark} (h : Matches s (m :: marks)) :
    Matches (s.destroyBehaviour ⟨m.entity, m.id⟩).1 marks := by
  have hfresh : m.id ∉ marks.map Stage.Mark.id := (List.nodup_cons.1 h.ids).1
  -- nothing changes on the other entities
  have hother : ∀ e, m.entity ≠ e → s.world.contains e = true →
      (s.world.tagsOn e).Perm ((marks.filter fun m => m.entity = e).map Stage.Mark.tag) := by
    intro e hne he
    simpa [List.filter_cons, hne] using h.balance e he
  rcases s.destroyBehaviour_cases ⟨m.entity, m.id⟩ with ⟨hgone, heq⟩ | ⟨-, heq⟩ <;> rw [heq]
  · constructor
    · exact h.sound
    · exact fun x hx => h.issued x (List.mem_cons_of_mem m hx)
    · exact fun x hx => h.below x (List.mem_cons_of_mem m hx)
    · exact (List.nodup_cons.1 h.ids).2
    · intro e he
      refine hother e ?_ he
      rintro rfl
      rw [he] at hgone
      cases hgone
  · constructor
    · exact h.sound.removeInstance _
    · exact fun x hx => (h.issued x (List.mem_cons_of_mem m hx)).removeInstance _
    · exact fun x hx => h.below x (List.mem_cons_of_mem m hx)
    · exact (List.nodup_cons.1 h.ids).2
    · intro e he
      have he' : s.world.contains e = true := by simpa using he
      show ((s.world.removeInstance ⟨m.entity, m.id⟩).tagsOn e).Perm _
      rw [World.tagsOn_removeInstance h.sound]
      by_cases hme : e = m.entity
      · subst hme
        -- On its own entity the mark and the instance are taken out by the same number.
        have hfilter := (h.balance m.entity he').filter fun x => decide (x.1 ≠ m.id)
        have hkeep : ((marks.filter fun x => x.entity = m.entity).map Stage.Mark.tag).filter
            (fun x => decide (x.1 ≠ m.id)) =
              (marks.filter fun x => x.entity = m.entity).map Stage.Mark.tag := by
          rw [List.filter_eq_self]
          intro tag htag
          obtain ⟨x, hx, rfl⟩ := List.mem_map.1 htag
          refine decide_eq_true fun hid => hfresh ?_
          exact hid ▸ List.mem_map_of_mem (List.mem_filter.1 hx).1
        rw [if_pos rfl]
        refine hfilter.trans ?_
        rw [List.filter_cons_of_pos (by simp), List.map_cons,
          List.filter_cons_of_neg (by simp [Stage.Mark.tag]), hkeep]
      · rw [if_neg hme]
        exact hother e (Ne.symm hme) he'

end Matches

end HotReload
