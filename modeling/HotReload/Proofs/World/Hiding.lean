import HotReload.Proofs.World.Hooks

/-! # One instance does not concern the others

    Take away all instances of one number.  What is done to the rest of the stage is then
    what was done to it before, operation by operation, and the calls that the others get are the
    same ones: on the same instances, in the same order, to the same end.  So it makes no
    difference to them what the one instance is, and whether its hooks fail.

    Taking instances away is a change of the entities in their rows, which keeps each in its
    table.  Such a change commutes with everything that a world can undergo. -/

namespace HotReload

/-! ## Section 1 - changes in the rows -/

namespace World
variable {f g : Being → Being}

theorem mapBeings_mapBeings (w : World) (f g : Being → Being) :
    (w.mapBeings f).mapBeings g = w.mapBeings fun b => g (f b) := by
  simp [mapBeings, Function.comp_def]

theorem mapBeings_congr (w : World) (h : ∀ b, f b = g b) : w.mapBeings f = w.mapBeings g :=
  congrArg w.mapBeings (funext h)

theorem mapBeings_place (w : World) (b : Being) (hf : ∀ b, (f b).archetype = b.archetype) :
    (w.place b).mapBeings f = (w.mapBeings f).place (f b) := by
  unfold place mapBeings
  rw [hf]
  simp only [List.any_map, Function.comp_def]
  split
  · simp only [List.map_map, World.mk.injEq, and_true]
    refine List.map_congr_left fun t _ => ?_
    by_cases ht : t.archetype = b.archetype <;> simp [ht]
  · simp

theorem leave_map (e : Entity) (rows : List Being) (hf : ∀ b, (f b).entity = b.entity) :
    leave e (rows.map f) = (leave e rows).map f := by
  unfold leave
  have hidx : (rows.map f).findIdx? (fun b => b.entity = e) = rows.findIdx? fun b => b.entity = e := by
    simp [List.findIdx?_map, Function.comp_def, hf]
  rw [hidx, List.getLast?_map]
  cases rows.findIdx? fun b => b.entity = e with
  | none => rfl
  | some i =>
    cases rows.getLast? with
    | none => rfl
    | some last =>
      simp only [Option.map_some, List.length_map]
      split
      · rw [List.map_dropLast]
      · rw [List.map_set, List.map_dropLast]

theorem mapBeings_displace (w : World) (e : Entity) (hf : ∀ b, (f b).entity = b.entity) :
    (w.displace e).mapBeings f = (w.mapBeings f).displace e := by
  simp [displace, mapBeings, leave_map e _ hf]

theorem mapBeings_spawn (w : World) (name : Option String) {behaviours : Option (List Instance)}
    (hf : ∀ b, (f b).archetype = b.archetype) (hnew : ∀ e, f ⟨e, name, behaviours⟩ = ⟨e, name, behaviours⟩) :
    ((w.spawn name behaviours).1.mapBeings f, (w.spawn name behaviours).2) =
      (w.mapBeings f).spawn name behaviours := by
  have hallocate : (w.mapBeings f).allocate = (w.allocate.1.mapBeings f, w.allocate.2) := by
    unfold allocate mapBeings
    cases w.free <;> rfl
  unfold spawn
  rw [hallocate]
  simp only [mapBeings_place _ _ hf, hnew]

theorem mapBeings_despawn (w : World) (e : Entity) (hf : ∀ b, (f b).entity = b.entity) :
    ((w.despawn e).1.mapBeings f, (w.despawn e).2) = (w.mapBeings f).despawn e := by
  unfold despawn
  rw [contains_mapBeings hf]
  split
  · rw [← mapBeings_displace w e hf]
    rfl
  · rfl

end World

/-! ## Section 2 - hiding a number -/

/-- What is left of an entity without the instances of a number. -/
def Being.without (n : Nat) (b : Being) : Being :=
  { b with behaviours := b.behaviours.map fun is => is.filter fun i => i.id ≠ n }

/-- What is left of a world. -/
def World.without (n : Nat) (w : World) : World := w.mapBeings (Being.without n)

/-- What is left of a stage. -/
def Stage.without (n : Nat) (s : Stage) : Stage := { s with world := s.world.without n }

namespace Being
variable (n : Nat) (b : Being)

@[simp] theorem entity_without : (b.without n).entity = b.entity := rfl

@[simp] theorem name_without : (b.without n).name = b.name := rfl

@[simp] theorem archetype_without : (b.without n).archetype = b.archetype := by
  simp [archetype, without]

theorem instances_without : (b.without n).instances = b.instances.filter fun i => i.id ≠ n := by
  unfold instances without
  cases b.behaviours <;> rfl

theorem tick_without (engine : Engine) (dt : Float32) :
    ((b.tick engine dt).value).without n = ((b.without n).tick engine dt).value := by
  obtain ⟨e, name, behaviours⟩ := b
  cases behaviours with
  | none => rfl
  | some is => simp [tick, without, List.filter_map, Function.comp_def]

/-- Hiding a number hides the calls under it, and no other. -/
theorem calls_without (engine : Engine) (dt : Float32) :
    (b.calls engine dt).filter (fun c => c.target.id ≠ n) = (b.without n).calls engine dt := by
  unfold calls
  rw [instances_without, entity_without, name_without]
  induction b.instances with
  | nil => rfl
  | cons i rest ih =>
    have hid : ∀ c ∈ i.calls engine b.entity (b.name.getD "") dt, c.target.id = i.id :=
      fun c hc => congrArg InstanceRef.id (i.ref_of_mem_calls _ _ _ _ hc)
    rw [List.flatMap_cons, List.filter_append, ih]
    by_cases hi : i.id = n
    · rw [List.filter_cons_of_neg (by simp [hi]), List.filter_eq_nil_iff.2, List.nil_append]
      exact fun c hc => by simp [hid c hc, hi]
    · rw [List.filter_cons_of_pos (by simp [hi]), List.flatMap_cons, List.filter_eq_self.2]
      exact fun c hc => by simp [hid c hc, hi]

end Being

namespace World
variable (n : Nat) (w : World)

theorem contains_without (e : Entity) : (w.without n).contains e = w.contains e :=
  contains_mapBeings (Being.entity_without n) e

theorem spawn_without (name : Option String) {behaviours : Option (List Instance)}
    (hempty : behaviours.getD [] = []) :
    ((w.spawn name behaviours).1.without n, (w.spawn name behaviours).2) =
      (w.without n).spawn name behaviours := by
  refine mapBeings_spawn w name (Being.archetype_without n) fun e => ?_
  cases behaviours with
  | none => rfl
  | some is =>
    rw [show is = [] from hempty]
    rfl

theorem despawn_without (e : Entity) :
    ((w.despawn e).1.without n, (w.despawn e).2) = (w.without n).despawn e :=
  mapBeings_despawn w e (Being.entity_without n)

/-- An instance of another number is made in the same place. -/
theorem addInstance_without (e : Entity) {i : Instance} (hi : i.id ≠ n) :
    (w.addInstance e i).without n = (w.without n).addInstance e i := by
  unfold addInstance without
  rw [being?_mapBeings (Being.entity_without n)]
  cases w.being? e with
  | none => rfl
  | some b =>
    obtain ⟨entity, name, behaviours⟩ := b
    cases behaviours with
    | none =>
      -- the first instance of an entity moves it to another table
      rw [mapBeings_place _ _ (Being.archetype_without n), mapBeings_displace _ _ (Being.entity_without n)]
      simp [Being.without, hi]
    | some is =>
      simp only [Option.map_some, Being.without, mapBeings_mapBeings]
      refine mapBeings_congr w fun b => ?_
      by_cases hb : b.entity = e
      · simp [hb, Function.comp_def, hi]
      · simp [hb]

theorem removeInstance_without (r : InstanceRef) :
    (w.removeInstance r).without n = (w.without n).removeInstance r := by
  unfold removeInstance without
  rw [mapBeings_mapBeings, mapBeings_mapBeings]
  refine mapBeings_congr w fun b => ?_
  by_cases hb : b.entity = r.entity
  · simp [hb, Being.without, Function.comp_def, List.filter_filter, Bool.and_comm]
  · simp [hb, Being.without]

theorem tick_without (engine : Engine) (dt : Float32) :
    (w.tick engine dt).value.without n = ((w.without n).tick engine dt).value := by
  rw [tick_value, tick_value, without, without, mapBeings_mapBeings, mapBeings_mapBeings]
  exact mapBeings_congr w fun b => b.tick_without n engine dt

theorem calls_without (engine : Engine) (dt : Float32) :
    (w.calls engine dt).filter (fun c => c.target.id ≠ n) = (w.without n).calls engine dt := by
  unfold calls without
  rw [beings_mapBeings, List.filter_flatMap, List.flatMap_map]
  exact List.flatMap_congr fun b _ => b.calls_without n engine dt

end World

/-! ## Section 3 - a run without a number -/

namespace Stage
variable {n : Nat} {s : Stage}

theorem sync_without (modules : ModuleSet) : (s.sync modules).without n = (s.without n).sync modules := by
  unfold sync without
  split <;> rfl

/-- An operation does the same to the rest of a stage as to the whole, as long as the number is one that was given before. -/
theorem act_without (hn : n < s.nextInstance) (d : Op) : (s.act d).without n = (s.without n).act d := by
  cases d with
  | spawnNamed name =>
    have hempty : (some [] : Option (List Instance)).getD [] = [] := rfl
    have h := World.spawn_without n s.world (some name) hempty
    simp only [act, spawnNamed, without, ← h]
  | spawnBare name =>
    have hempty : (none : Option (List Instance)).getD [] = [] := rfl
    have h := World.spawn_without n s.world name hempty
    simp only [act, spawnBare, without, ← h]
  | despawn e =>
    have h := World.despawn_without n s.world e
    simp only [act, despawn, without, ← h]
  | follow modules => exact sync_without (s := { s with following := true, caughtUp := 0 }) modules
  | add modules e type =>
    have hengine : ((s.without n).sync modules).engine = (s.sync modules).engine := by
      rw [← sync_without]
      rfl
    have hcontains : (s.without n).world.contains e = s.world.contains e := s.world.contains_without n e
    simp only [act, addBehaviour, hengine, hcontains]
    split
    · split
      · exact sync_without modules
      · next fields _ =>
        have hmade := World.addInstance_without n (s.sync modules).world e
          (i := ⟨(s.sync modules).nextInstance, type, fields, false⟩)
          (by rw [nextInstance_sync]; exact Nat.ne_of_gt hn)
        simp only [← sync_without]
        simp only [without, hmade]
    · rfl
  | destroy r =>
    have hcontains : (s.without n).world.contains r.entity = s.world.contains r.entity :=
      s.world.contains_without n r.entity
    simp only [act, destroyBehaviour, hcontains]
    split
    · simp only [without, World.removeInstance_without]
    · rfl
  | tick modules dt =>
    simp only [act, tick, Ticked.andThen_value, ← sync_without]
    simp only [without, World.tick_without]

theorem callsOf_without (d : Op) :
    (s.callsOf d).filter (fun c => c.target.id ≠ n) = (s.without n).callsOf d := by
  cases d with
  | tick modules dt =>
    simp only [callsOf, calls, ← sync_without]
    exact s.world.calls_without n (s.sync modules).engine dt
  | _ => rfl

theorem le_nextInstance_act (hs : s.world.Sound) (d : Op) : s.nextInstance ≤ (s.act d).nextInstance := by
  rcases act_tags hs d with ⟨hnext, -⟩ | ⟨-, -, hnext, -⟩
  · exact Nat.le_of_eq hnext.symm
  · exact hnext ▸ Nat.le_succ s.nextInstance

/-- The calls under other numbers are those of the run without the number. -/
theorem diary_without (hs : s.world.Sound) (hn : n < s.nextInstance) (ops : List Op) :
    (s.diary ops).map (fun calls => calls.filter fun c => c.target.id ≠ n) = (s.without n).diary ops := by
  induction ops generalizing s with
  | nil => rfl
  | cons d more ih =>
    unfold diary
    rw [List.map_cons, callsOf_without, ← act_without hn,
      ih (sound_act hs d) (Nat.lt_of_lt_of_le hn (le_nextInstance_act hs d))]

end Stage

/-! ## Section 4 - another instance in the place of one -/

/-- Something else in the place of an instance of a number. -/
def Instance.refit (n : Nat) (f : Instance → Instance) (i : Instance) : Instance :=
  if i.id = n then { f i with id := n } else i

namespace Stage
variable {n : Nat} {s : Stage}

/-- Puts something else in the place of all instances of a number. -/
def refit (s : Stage) (n : Nat) (f : Instance → Instance) : Stage :=
  { s with
    world := s.world.mapBeings fun b =>
      { b with behaviours := b.behaviours.map fun is => is.map (Instance.refit n f) } }

theorem refit_without (f : Instance → Instance) : (s.refit n f).without n = s.without n := by
  have hfit : ∀ is : List Instance, (is.map (Instance.refit n f)).filter (fun i => i.id ≠ n) =
      is.filter fun i => i.id ≠ n := by
    intro is
    induction is with
    | nil => rfl
    | cons i rest ih =>
      rw [List.map_cons]
      by_cases hi : i.id = n
      · rw [List.filter_cons_of_neg (by simp [Instance.refit, hi]), ih, List.filter_cons_of_neg (by simp [hi])]
      · rw [show i.refit n f = i from if_neg hi, List.filter_cons_of_pos (by simp [hi]), ih,
          List.filter_cons_of_pos (by simp [hi])]
  unfold refit without World.without
  rw [World.mapBeings_mapBeings]
  congr 1
  refine World.mapBeings_congr s.world fun b => ?_
  simp only [Being.without, Option.map_map, Function.comp_def, hfit]

/-- Whatever stands in the place of one instance, with whatever hooks, the others have the same calls. -/
theorem diary_refit (hs : s.Numbered) (hn : n < s.nextInstance) (f : Instance → Instance) (ops : List Op) :
    ((s.refit n f).diary ops).map (fun calls => calls.filter fun c => c.target.id ≠ n) =
      (s.diary ops).map fun calls => calls.filter fun c => c.target.id ≠ n := by
  have hsound : (s.refit n f).world.Sound := hs.sound.mapBeings fun _ => rfl
  rw [diary_without hsound hn, diary_without hs.sound hn, refit_without]

end Stage

end HotReload
