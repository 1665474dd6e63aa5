import HotReload.World.World
import Mathlib.Data.List.Nodup
import Mathlib.Data.List.Perm.Basic

/-! # Worlds keep their entities apart

    Tables, slots and generations are three records of who is alive.  A world is
    *sound* when they agree: no entity stands in two rows, no archetype has two
    tables, and the slot of everybody alive is taken at the entity's generation.

    Every change of a world keeps it sound, and what a change does is said by one
    equation on `World.being?`.  In particular a new entity was never issued before,
    so that whoever remembers an entity that is gone does not meet it again. -/

namespace HotReload

namespace World

/-! ## Section 1 - rows and tables -/

/-- Taking an entity out of a table by moving the last row into its place keeps everybody else. -/
theorem leave_perm (e : Entity) {rows : List Being} (hnd : (rows.map Being.entity).Nodup) :
    (leave e rows).Perm (rows.filter fun b => b.entity ≠ e) := by
  have hkept : ∀ l : List Being, e ∉ l.map Being.entity → l.filter (fun b => b.entity ≠ e) = l := by
    intro l hl
    apply List.filter_eq_self.2
    intro b hb
    simpa using fun h : b.entity = e => hl (h ▸ List.mem_map_of_mem hb)
  unfold leave
  cases hi : rows.findIdx? (fun b => b.entity = e) with
  | none =>
    have hnone : e ∉ rows.map Being.entity := by
      intro hmem
      obtain ⟨b, hb, rfl⟩ := List.mem_map.1 hmem
      simpa using List.findIdx?_eq_none_iff.1 hi b hb
    rw [hkept rows hnone]
  | some i =>
    obtain ⟨hlt, hbi, -⟩ := List.findIdx?_eq_some_iff_getElem.1 hi
    have hbe : rows[i].entity = e := by simpa using hbi
    -- The rows before and after the one that leaves.
    have hsplit : rows = rows.take i ++ rows[i] :: rows.drop (i + 1) := by
      rw [← List.drop_eq_getElem_cons hlt, List.take_append_drop]
    have hparts : e ∉ (rows.take i).map Being.entity ∧ e ∉ (rows.drop (i + 1)).map Being.entity := by
      rw [hsplit, List.map_append, List.map_cons, hbe] at hnd
      obtain ⟨-, hcons, hdisj⟩ := List.nodup_append.1 hnd
      exact ⟨fun h => hdisj e h e List.mem_cons_self rfl, (List.nodup_cons.1 hcons).1⟩
    have hfilter : rows.filter (fun b => b.entity ≠ e) = rows.take i ++ rows.drop (i + 1) := by
      conv_lhs => rw [hsplit]
      rw [List.filter_append, List.filter_cons_of_neg (by simp [hbe]), hkept _ hparts.1,
        hkept _ hparts.2]
    rw [hfilter]
    -- The last row takes the place of the one that leaves, unless it is that row itself.
    cases hlast : rows.getLast? with
    | none => simp [List.getLast?_eq_none_iff.1 hlast] at hlt
    | some last =>
      obtain ⟨front, rfl⟩ := List.getLast?_eq_some_iff.1 hlast
      simp only [List.length_append, List.length_singleton] at hlt ⊢
      by_cases hend : i = front.length
      · subst hend
        simp
      · have hin : i < front.length := by omega
        rw [if_neg (by omega), List.dropLast_concat, List.set_eq_take_append_cons_drop, if_pos hin,
          List.take_append_of_le_length (by omega), List.drop_append_of_le_length (by omega),
          ← List.append_assoc]
        exact List.perm_middle.trans (List.perm_append_singleton last _).symm

/-- The rows of all tables after each table was changed by itself. -/
theorem flatMap_rows_perm {tables : List Table} {f : Table → Table} {p : Being → Bool}
    (h : ∀ t ∈ tables, (f t).rows.Perm (t.rows.filter p)) :
    ((tables.map f).flatMap Table.rows).Perm ((tables.flatMap Table.rows).filter p) := by
  induction tables with
  | nil => simp
  | cons t ts ih =>
    rw [List.map_cons, List.flatMap_cons, List.flatMap_cons, List.filter_append]
    exact (h t List.mem_cons_self).append (ih fun u hu => h u (List.mem_cons_of_mem t hu))

theorem beings_displace {w : World} (e : Entity) (hnd : (w.beings.map Being.entity).Nodup) :
    (w.displace e).beings.Perm (w.beings.filter fun b => b.entity ≠ e) := by
  apply flatMap_rows_perm
  intro t ht
  apply leave_perm
  have hsub : t.rows.Sublist w.beings := List.sublist_flatten_of_mem (List.mem_map_of_mem ht)
  exact hnd.sublist (hsub.map Being.entity)

/-- A row at the end of the table of its archetype is one more row of the world, as long as no
    archetype has two tables. -/
theorem flatMap_rows_insert {tables : List Table} (b : Being)
    (hnd : (tables.map Table.archetype).Nodup) (hmem : b.archetype ∈ tables.map Table.archetype) :
    ((tables.map fun t => if t.archetype = b.archetype then { t with rows := t.rows ++ [b] }
        else t).flatMap Table.rows).Perm (b :: tables.flatMap Table.rows) := by
  induction tables with
  | nil => simp at hmem
  | cons t ts ih =>
    obtain ⟨hhead, hnd'⟩ := List.nodup_cons.1 hnd
    rw [List.map_cons, List.flatMap_cons, List.flatMap_cons]
    by_cases ht : t.archetype = b.archetype
    · have hrest : (ts.map fun t => if t.archetype = b.archetype then { t with rows := t.rows ++ [b] }
          else t) = ts := by
        refine (List.map_congr_left fun u hu => ?_).trans (List.map_id ts)
        rw [if_neg, id]
        intro hub
        exact hhead (ht.trans hub.symm ▸ List.mem_map_of_mem hu)
      rw [if_pos ht, hrest, List.append_assoc]
      exact List.perm_middle
    · have htail : b.archetype ∈ ts.map Table.archetype := by
        rcases List.mem_cons.1 hmem with h | h
        · exact absurd h.symm ht
        · exact h
      rw [if_neg ht]
      exact ((ih hnd' htail).append_left t.rows).trans List.perm_middle

theorem beings_place {w : World} (b : Being) (hnd : (w.tables.map Table.archetype).Nodup) :
    (w.place b).beings.Perm (b :: w.beings) := by
  unfold place
  split
  · next h =>
    apply flatMap_rows_insert b hnd
    obtain ⟨t, ht, htb⟩ := List.any_eq_true.1 h
    exact List.mem_map.2 ⟨t, ht, by simpa using htb⟩
  · simp only [beings, List.flatMap_append]
    simp

theorem archetypes_place {w : World} (b : Being) (hnd : (w.tables.map Table.archetype).Nodup) :
    ((w.place b).tables.map Table.archetype).Nodup := by
  unfold place
  split
  · have hsame : ∀ t : Table, (if t.archetype = b.archetype then { t with rows := t.rows ++ [b] }
        else t).archetype = t.archetype := by
      intro t
      split <;> rfl
    simpa [Function.comp_def, hsame] using hnd
  · next h =>
    rw [List.map_append, List.nodup_append]
    refine ⟨hnd, by simp, ?_⟩
    intro a ha a' ha' haa
    obtain ⟨t, ht, rfl⟩ := List.mem_map.1 ha
    simp only [List.map_cons, List.map_nil, List.mem_singleton] at ha'
    exact h (List.any_eq_true.2 ⟨t, ht, by simpa using haa.trans ha'⟩)

@[simp] theorem archetypes_displace (w : World) (e : Entity) :
    (w.displace e).tables.map Table.archetype = w.tables.map Table.archetype := by
  simp [displace, Function.comp_def]

@[simp] theorem archetypes_mapBeings (w : World) (f : Being → Being) :
    (w.mapBeings f).tables.map Table.archetype = w.tables.map Table.archetype := by
  simp [mapBeings, Function.comp_def]

@[simp] theorem beings_mapBeings (w : World) (f : Being → Being) :
    (w.mapBeings f).beings = w.beings.map f := by
  simp [mapBeings, beings, List.map_flatMap, List.flatMap_map]

@[simp] theorem generations_place (w : World) (b : Being) :
    (w.place b).generations = w.generations := by
  unfold place; split <;> rfl

@[simp] theorem free_place (w : World) (b : Being) : (w.place b).free = w.free := by
  unfold place; split <;> rfl

/-! ## Section 2 - soundness -/

/-- The records of who is alive agree. -/
structure Sound (w : World) : Prop where
  /-- No archetype has two tables. -/
  archetypes : (w.tables.map Table.archetype).Nodup
  /-- No entity stands in two rows. -/
  entities : (w.beings.map Being.entity).Nodup
  /-- The slot of an entity that is alive is taken, at its generation. -/
  living : ∀ b ∈ w.beings,
    w.generations[b.entity.index]? = some b.entity.generation ∧ b.entity.index ∉ w.free
  /-- No slot is free twice. -/
  free_nodup : w.free.Nodup
  /-- Only slots that were taken once are free. -/
  free_lt : ∀ i ∈ w.free, i < w.generations.length

/-- The entity was handed out by this world: its slot has come to a later generation, or is at its
    generation and taken. -/
def Issued (w : World) (e : Entity) : Prop :=
  ∃ g, w.generations[e.index]? = some g ∧ (e.generation < g ∨ e.generation = g ∧ e.index ∉ w.free)

theorem sound_empty : Sound {} where
  archetypes := by simp
  entities := by simp [beings]
  living := by simp [beings]
  free_nodup := List.nodup_nil
  free_lt := by simp

/-- With every entity in one row, looking for an entity finds the row that holds it. -/
theorem find?_entity_iff {rows : List Being} (hnd : (rows.map Being.entity).Nodup) {e : Entity}
    {b : Being} : rows.find? (fun b => b.entity = e) = some b ↔ b ∈ rows ∧ b.entity = e := by
  constructor
  · intro h
    exact ⟨List.mem_of_find?_eq_some h, by simpa using List.find?_some h⟩
  · rintro ⟨hb, rfl⟩
    obtain ⟨c, hc⟩ : ∃ c, rows.find? (fun c => c.entity = b.entity) = some c := by
      rw [← Option.isSome_iff_exists, List.find?_isSome]
      exact ⟨b, hb, by simp⟩
    have hcb : c.entity = b.entity := by simpa using List.find?_some hc
    rw [hc, List.inj_on_of_nodup_map hnd (List.mem_of_find?_eq_some hc) hb hcb]

/-- The order of rows does not matter to who is found. -/
theorem find?_entity_perm {rows rows' : List Being} (h : rows.Perm rows')
    (hnd : (rows.map Being.entity).Nodup) (e : Entity) :
    rows.find? (fun b => b.entity = e) = rows'.find? (fun b => b.entity = e) := by
  ext b
  rw [find?_entity_iff hnd, find?_entity_iff ((h.map Being.entity).nodup hnd), h.mem_iff]

theorem find?_entity_filter (rows : List Being) (e e' : Entity) :
    (rows.filter fun b => b.entity ≠ e).find? (fun b => b.entity = e') =
      if e' = e then none else rows.find? (fun b => b.entity = e') := by
  rw [List.find?_filter]
  by_cases h : e' = e
  · subst h
    rw [if_pos rfl, List.find?_eq_none]
    intro b _
    by_cases hb : b.entity = e' <;> simp [hb]
  · rw [if_neg h]
    congr 1
    funext b
    by_cases hb : b.entity = e' <;> simp [hb, h]

theorem Sound.being?_iff {w : World} (h : w.Sound) {e : Entity} {b : Being} :
    w.being? e = some b ↔ b ∈ w.beings ∧ b.entity = e :=
  find?_entity_iff h.entities

theorem Sound.issued {w : World} (h : w.Sound) {e : Entity} (hc : w.contains e = true) :
    w.Issued e := by
  obtain ⟨b, hb⟩ := Option.isSome_iff_exists.1 hc
  obtain ⟨hmem, rfl⟩ := h.being?_iff.1 hb
  obtain ⟨hg, hfree⟩ := h.living b hmem
  exact ⟨_, hg, .inr ⟨rfl, hfree⟩⟩

/-- Soundness speaks of who is alive, in whatever rows. -/
theorem Sound.of_perm {w w' : World} (h : w.Sound)
    (hperm : (w'.beings.map Being.entity).Perm (w.beings.map Being.entity))
    (harch : (w'.tables.map Table.archetype).Nodup) (hgen : w'.generations = w.generations)
    (hfree : w'.free = w.free) : w'.Sound where
  archetypes := harch
  entities := hperm.nodup_iff.2 h.entities
  living := by
    intro b hb
    obtain ⟨c, hc, hcb⟩ := List.mem_map.1 (hperm.mem_iff.1 (List.mem_map_of_mem hb))
    rw [hgen, hfree, ← hcb]
    exact h.living c hc
  free_nodup := hfree ▸ h.free_nodup
  free_lt := by
    rw [hgen, hfree]
    exact h.free_lt

/-! ## Section 3 - new entities -/

@[simp] theorem tables_allocate (w : World) : w.allocate.1.tables = w.tables := by
  unfold allocate; split <;> rfl

@[simp] theorem beings_allocate (w : World) : w.allocate.1.beings = w.beings := by
  simp [beings]

/-- A new entity is none that the world has handed out. -/
theorem not_issued_allocate {w : World} (h : w.Sound) : ¬ w.Issued w.allocate.2 := by
  rintro ⟨g, hg, hlt⟩
  unfold allocate at hg hlt
  -- A new slot lies beyond all that were taken, and one that is reused is free at its generation.
  cases hf : w.free with
  | nil => simp [hf] at hg
  | cons index rest =>
    have hindex : index < w.generations.length := h.free_lt index (by simp [hf])
    simp only [hf, List.getElem?_eq_getElem hindex, Option.some.injEq, List.getD_eq_getElem?_getD,
      Option.getD_some] at hg hlt
    rcases hlt with hlt | ⟨-, hnot⟩
    · omega
    · exact hnot List.mem_cons_self

/-- The slot of a new entity is taken, at the generation of the entity. -/
theorem allocate_taken {w : World} (h : w.Sound) :
    w.allocate.1.generations[w.allocate.2.index]? = some w.allocate.2.generation ∧
      w.allocate.2.index ∉ w.allocate.1.free := by
  unfold allocate
  cases hf : w.free with
  | nil => simp
  | cons index rest =>
    have hindex : index < w.generations.length := h.free_lt index (by simp [hf])
    have hnd := h.free_nodup
    rw [hf] at hnd
    exact ⟨by simp [List.getElem?_eq_getElem hindex], (List.nodup_cons.1 hnd).1⟩

theorem Issued.allocate {w : World} {e : Entity} (he : w.Issued e) : w.allocate.1.Issued e := by
  obtain ⟨g, hg, hlt⟩ := he
  have hbound : e.index < w.generations.length := (List.getElem?_eq_some_iff.1 hg).1
  refine ⟨g, ?_, ?_⟩
  · unfold World.allocate
    split
    · exact hg
    · rw [List.getElem?_append_left hbound, hg]
  · rcases hlt with hlt | ⟨heq, hnot⟩
    · exact .inl hlt
    · refine .inr ⟨heq, ?_⟩
      unfold World.allocate
      split
      · next hf =>
        rw [hf] at hnot
        exact fun hmem => hnot (List.mem_cons_of_mem _ hmem)
      · exact hnot

theorem Sound.allocate {w : World} (h : w.Sound) : w.allocate.1.Sound where
  archetypes := by simpa using h.archetypes
  entities := by simpa using h.entities
  living := by
    intro b hb
    rw [beings_allocate] at hb
    obtain ⟨g, hg, hlt⟩ := Issued.allocate ⟨_, (h.living b hb).1, .inr ⟨rfl, (h.living b hb).2⟩⟩
    -- The slot keeps its generation, so that it cannot have come to a later one.
    have hgen : g = b.entity.generation := by
      have hold := (h.living b hb).1
      unfold World.allocate at hg
      split at hg
      · simpa [hold] using hg.symm
      · have hbound : b.entity.index < w.generations.length := (List.getElem?_eq_some_iff.1 hold).1
        rw [List.getElem?_append_left hbound, hold] at hg
        exact (Option.some.inj hg).symm
    rw [hgen] at hg hlt
    rcases hlt with hlt | ⟨-, hnot⟩
    · omega
    · exact ⟨hg, hnot⟩
  free_nodup := by
    unfold World.allocate
    split
    · next hf => exact (List.nodup_cons.1 (hf ▸ h.free_nodup)).2
    · exact h.free_nodup
  free_lt := by
    unfold World.allocate
    split
    · next hf => exact fun i hi => h.free_lt i (hf ▸ List.mem_cons_of_mem _ hi)
    · next hf => simp [hf]

section spawn
variable {w : World} (name : Option String) (behaviours : Option (List Instance))

/-- The entities after a new one has come. -/
theorem beings_spawn (h : w.Sound) : (w.spawn name behaviours).1.beings.Perm
    (⟨(w.spawn name behaviours).2, name, behaviours⟩ :: w.beings) := by
  have hplace := beings_place (w := w.allocate.1) ⟨w.allocate.2, name, behaviours⟩
    (by simpa using h.archetypes)
  rwa [beings_allocate] at hplace

theorem not_issued_spawn (h : w.Sound) : ¬ w.Issued (w.spawn name behaviours).2 :=
  not_issued_allocate h

theorem Issued.spawn {e : Entity} (he : w.Issued e) : (w.spawn name behaviours).1.Issued e := by
  obtain ⟨g, hg, hlt⟩ := he.allocate
  exact ⟨g, by simpa [World.spawn] using hg, by simpa [World.spawn] using hlt⟩

theorem Sound.spawn (h : w.Sound) : (w.spawn name behaviours).1.Sound := by
  have hperm := beings_spawn name behaviours h
  have hself : (w.spawn name behaviours).2 ∉ w.beings.map Being.entity := by
    intro hmem
    obtain ⟨b, hb, hbe⟩ := List.mem_map.1 hmem
    exact not_issued_spawn name behaviours h
      ⟨_, hbe ▸ (h.living b hb).1, .inr ⟨rfl, hbe ▸ (h.living b hb).2⟩⟩
  refine ⟨archetypes_place _ h.allocate.archetypes, ?_, ?_, ?_, ?_⟩
  · -- The row that comes is no second row of its entity, because the entity is new.
    rw [(hperm.map Being.entity).nodup_iff, List.map_cons, List.nodup_cons]
    exact ⟨hself, h.entities⟩
  · intro b hb
    rcases List.mem_cons.1 (hperm.mem_iff.1 hb) with rfl | hb
    · simpa [World.spawn] using allocate_taken h
    · simpa [World.spawn] using h.allocate.living b (by simpa using hb)
  · simpa [World.spawn] using h.allocate.free_nodup
  · simpa [World.spawn] using h.allocate.free_lt

/-- Whoever was there stays, and the new entity is there as it was asked for. -/
theorem being?_spawn (h : w.Sound) (e : Entity) : (w.spawn name behaviours).1.being? e =
    if e = (w.spawn name behaviours).2 then some ⟨e, name, behaviours⟩ else w.being? e := by
  have hnd := (h.spawn name behaviours).entities
  unfold being?
  rw [find?_entity_perm (beings_spawn name behaviours h) hnd, List.find?_cons]
  by_cases he : e = (w.spawn name behaviours).2
  · simp [he]
  · simp [he, Ne.symm he]

end spawn

/-! ## Section 4 - entities that go -/

section despawn
variable {w : World} (e : Entity)

/-- The entities after one has gone, which may not have been there. -/
theorem beings_despawn (h : w.Sound) :
    (w.despawn e).1.beings.Perm (w.beings.filter fun b => b.entity ≠ e) := by
  unfold despawn
  split
  · exact beings_displace e h.entities
  · next hc =>
    -- Nobody has to go, so that the filter keeps every row.
    have hall : w.beings.filter (fun b => b.entity ≠ e) = w.beings := by
      apply List.filter_eq_self.2
      intro b hb
      simp only [ne_eq, decide_not, Bool.not_eq_eq_eq_not, Bool.not_true, decide_eq_false_iff_not]
      intro hbe
      exact hc (Option.isSome_iff_exists.2 ⟨b, h.being?_iff.2 ⟨hb, hbe⟩⟩)
    rw [hall]

theorem being?_despawn (h : w.Sound) (e' : Entity) :
    (w.despawn e).1.being? e' = if e' = e then none else w.being? e' := by
  have hperm := beings_despawn e h
  have hnd : ((w.despawn e).1.beings.map Being.entity).Nodup := by
    rw [(hperm.map Being.entity).nodup_iff]
    exact h.entities.sublist (List.filter_sublist.map Being.entity)
  unfold being?
  rw [find?_entity_perm hperm hnd, find?_entity_filter]

theorem Issued.despawn (h : w.Sound) {e' : Entity} (he : w.Issued e') :
    (w.despawn e).1.Issued e' := by
  unfold World.despawn
  split
  · next hc =>
    -- The slot of the entity that goes comes to a later generation, and no other slot changes.
    obtain ⟨g, hg, hlt⟩ := he
    by_cases hi : e'.index = e.index
    · obtain ⟨b, hb⟩ := Option.isSome_iff_exists.1 hc
      obtain ⟨hmem, rfl⟩ := h.being?_iff.1 hb
      have hlive := (h.living b hmem).1
      rw [hi, hlive, Option.some.injEq] at hg
      have hbound : b.entity.index < w.generations.length := (List.getElem?_eq_some_iff.1 hlive).1
      refine ⟨b.entity.generation + 1, ?_, .inl ?_⟩
      · show (w.generations.set b.entity.index (b.entity.generation + 1))[e'.index]? = _
        rw [hi, List.getElem?_set_self hbound]
      · rcases hlt with hlt | ⟨heq, -⟩ <;> omega
    · refine ⟨g, ?_, ?_⟩
      · show (w.generations.set e.index (e.generation + 1))[e'.index]? = _
        rw [List.getElem?_set_ne (Ne.symm hi), hg]
      · simpa [displace, hi] using hlt
  · exact he

theorem Sound.despawn (h : w.Sound) : (w.despawn e).1.Sound := by
  have hperm := beings_despawn e h
  by_cases hc : w.contains e = true
  · obtain ⟨c, hce⟩ := Option.isSome_iff_exists.1 hc
    obtain ⟨hcmem, rfl⟩ := h.being?_iff.1 hce
    obtain ⟨hslot, hfree⟩ := h.living c hcmem
    refine ⟨?_, ?_, ?_, ?_, ?_⟩
    · simpa [World.despawn, hc] using h.archetypes
    · rw [(hperm.map Being.entity).nodup_iff]
      exact h.entities.sublist (List.filter_sublist.map Being.entity)
    · intro b hb
      have hb' := hperm.mem_iff.1 hb
      simp only [ne_eq, decide_not, List.mem_filter, Bool.not_eq_eq_eq_not, Bool.not_true,
        decide_eq_false_iff_not] at hb'
      obtain ⟨hbmem, hbc⟩ := hb'
      obtain ⟨hbslot, hbfree⟩ := h.living b hbmem
      -- Two entities that are alive at one slot are one, as both are at its generation.
      have hi : b.entity.index ≠ c.entity.index := by
        intro hi
        rw [hi, hslot, Option.some.injEq] at hbslot
        exact hbc (by cases hb : b.entity; cases hc : c.entity; simp_all)
      simp only [World.despawn, hc, if_true]
      refine ⟨?_, ?_⟩
      · rw [List.getElem?_set_ne (Ne.symm hi)]
        exact hbslot
      · simpa [displace, hi] using hbfree
    · simpa [World.despawn, hc, displace] using ⟨hfree, h.free_nodup⟩
    · have hbound : c.entity.index < w.generations.length := (List.getElem?_eq_some_iff.1 hslot).1
      simpa [World.despawn, hc, displace] using ⟨hbound, h.free_lt⟩
  · simpa [World.despawn, hc] using h

end despawn

/-! ## Section 5 - instances -/

section instances
variable {w : World}

theorem Sound.mapBeings (h : w.Sound) {f : Being → Being} (hf : ∀ b, (f b).entity = b.entity) :
    (w.mapBeings f).Sound := by
  refine h.of_perm ?_ (by simpa using h.archetypes) rfl rfl
  simp [Function.comp_def, hf]

theorem being?_mapBeings {f : Being → Being} (hf : ∀ b, (f b).entity = b.entity) (e : Entity) :
    (w.mapBeings f).being? e = (w.being? e).map f := by
  unfold being?
  rw [beings_mapBeings, List.find?_map]
  congr 2
  funext b
  simp [hf]

/-- An entity that carries behaviours gets another one where it stands. -/
theorem addInstance_of_some {e : Entity} {b : Being} {is : List Instance} (i : Instance)
    (hb : w.being? e = some b) (hlist : b.behaviours = some is) : w.addInstance e i =
      w.mapBeings fun b =>
        if b.entity = e then { b with behaviours := b.behaviours.map (· ++ [i]) } else b := by
  simp only [addInstance, hb, hlist]

/-- An entity that carries none moves to another table with its first. -/
theorem addInstance_of_none {e : Entity} {b : Being} (i : Instance)
    (hb : w.being? e = some b) (hlist : b.behaviours = none) :
    w.addInstance e i = (w.displace e).place { b with behaviours := some [i] } := by
  simp only [addInstance, hb, hlist]

theorem beings_move (h : w.Sound) {e : Entity} (b : Being) :
    ((w.displace e).place b).beings.Perm (b :: w.beings.filter fun b => b.entity ≠ e) := by
  have hplace := beings_place (w := w.displace e) b (by simpa using h.archetypes)
  exact hplace.trans ((beings_displace e h.entities).cons b)

/-- An entity that moves to another table stays the one it is. -/
theorem entities_move (h : w.Sound) {e : Entity} {b c : Being} (hb : w.being? e = some b)
    (hc : c.entity = e) : (((w.displace e).place c).beings.map Being.entity).Perm
      (w.beings.map Being.entity) := by
  obtain ⟨hmem, hbe⟩ := h.being?_iff.1 hb
  have hfilter : (w.beings.filter fun b => b.entity ≠ e).map Being.entity =
      (w.beings.map Being.entity).erase e := by
    rw [h.entities.erase_eq_filter, List.filter_map]
    congr 2
    funext b
    simp [bne, beq_eq_decide]
  have hperm := (beings_move h (e := e) c).map Being.entity
  rw [List.map_cons, hfilter, hc] at hperm
  exact hperm.trans (List.perm_cons_erase (hbe ▸ List.mem_map_of_mem hmem)).symm

theorem Sound.addInstance (h : w.Sound) (e : Entity) (i : Instance) :
    (w.addInstance e i).Sound := by
  cases hb : w.being? e with
  | none => simpa only [World.addInstance, hb] using h
  | some b =>
    cases hlist : b.behaviours with
    | some is =>
      rw [addInstance_of_some i hb hlist]
      exact h.mapBeings (by intro c; split <;> rfl)
    | none =>
      rw [addInstance_of_none i hb hlist]
      have hbe := (h.being?_iff.1 hb).2
      exact h.of_perm (entities_move h hb hbe) (archetypes_place _ (by simpa using h.archetypes))
        (by simp [displace]) (by simp [displace])

/-- What there is to an entity after it got one more instance. -/
theorem being?_addInstance (h : w.Sound) (e : Entity) (i : Instance) (e' : Entity) :
    (w.addInstance e i).being? e' =
      if e' = e then (w.being? e).map fun b => { b with behaviours := some (b.instances ++ [i]) }
      else w.being? e' := by
  cases hb : w.being? e with
  | none =>
    simp only [addInstance, hb, Option.map_none]
    by_cases he : e' = e
    · rw [if_pos he, he, hb]
    · rw [if_neg he]
  | some b =>
    have hbe := (h.being?_iff.1 hb).2
    -- The row is changed where it stands, or it moves to the table of entities with behaviours.
    cases hlist : b.behaviours with
    | some is =>
      rw [addInstance_of_some i hb hlist, being?_mapBeings (by intro c; split <;> rfl)]
      by_cases he : e' = e
      · simp [he, hb, hbe, hlist, Being.instances]
      · rw [if_neg he]
        cases hc : w.being? e' with
        | none => rfl
        | some c => simp [(h.being?_iff.1 hc).2, he]
    | none =>
      have hnd := (entities_move h hb (c := { b with behaviours := some [i] }) hbe).nodup_iff.2
        h.entities
      rw [addInstance_of_none i hb hlist]
      unfold being?
      rw [find?_entity_perm (beings_move h _) hnd, List.find?_cons, find?_entity_filter]
      by_cases he : e' = e
      · simp [he, hbe, Being.instances, hlist]
      · simp [he, hbe, Ne.symm he]

theorem Issued.addInstance {e e' : Entity} (i : Instance) (he : w.Issued e') :
    (w.addInstance e i).Issued e' := by
  unfold World.addInstance
  split
  · exact he
  · split
    · exact he
    · simpa [Issued, displace] using he

theorem being?_removeInstance (r : InstanceRef) (e : Entity) :
    (w.removeInstance r).being? e = (w.being? e).map fun b =>
      if b.entity = r.entity then
        { b with behaviours := b.behaviours.map fun is => is.filter fun i => i.id ≠ r.id }
      else b :=
  being?_mapBeings (by intro b; split <;> rfl) e

theorem Sound.removeInstance (h : w.Sound) (r : InstanceRef) : (w.removeInstance r).Sound :=
  h.mapBeings (by intro b; split <;> rfl)

theorem Issued.removeInstance {e : Entity} (r : InstanceRef) (he : w.Issued e) :
    (w.removeInstance r).Issued e :=
  he

end instances

end World

end HotReload
