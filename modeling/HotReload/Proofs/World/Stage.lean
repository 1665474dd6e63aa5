import HotReload.Proofs.World.Soundness
import HotReload.World.Host

/-! # What a stage carries

    Scripts know an instance by its number, and the stage runs it by its type.  The
    *tags* on an entity are the numbers and types of its instances, in order.  Each
    operation of a stage is described by what it does to who is alive and to the
    tags, which is all that the theory of scripts needs to know of a stage: a tick
    changes neither, and an operation that fails changes neither. -/

namespace HotReload

/-! ## Section 1 - tags in a world -/

namespace World

/-- The numbers and types of the instances on an entity, in the order in which they run. -/
def tagsOn (w : World) (e : Entity) : List (Nat × BehaviourType) :=
  (w.instancesOn e).map fun i => (i.id, i.type)

/-- Who is not there carries nothing. -/
theorem tagsOn_of_not_contains {w : World} {e : Entity} (h : w.contains e = false) :
    w.tagsOn e = [] := by
  have hnone : w.being? e = none := by simpa [contains] using h
  simp [tagsOn, instancesOn, hnone]

section changes
variable {w : World}

theorem contains_spawn (h : w.Sound) (name : Option String) (behaviours : Option (List Instance))
    (e : Entity) : (w.spawn name behaviours).1.contains e =
      (decide (e = (w.spawn name behaviours).2) || w.contains e) := by
  unfold contains
  rw [being?_spawn name behaviours h]
  by_cases he : e = (w.spawn name behaviours).2 <;> simp [he]

/-- An entity comes without instances. -/
theorem tagsOn_spawn (h : w.Sound) (name : Option String) {behaviours : Option (List Instance)}
    (hempty : behaviours.getD [] = []) (e : Entity) :
    (w.spawn name behaviours).1.tagsOn e = w.tagsOn e := by
  by_cases he : e = (w.spawn name behaviours).2
  · -- The new entity was not there, so it carried nothing before either.
    have hgone : w.contains e = false := by
      by_contra hc
      rw [Bool.not_eq_false] at hc
      exact not_issued_spawn name behaviours h (he ▸ h.issued hc)
    rw [tagsOn_of_not_contains hgone]
    unfold tagsOn instancesOn
    rw [being?_spawn name behaviours h, if_pos he]
    simp [Being.instances, hempty]
  · unfold tagsOn instancesOn
    rw [being?_spawn name behaviours h, if_neg he]

theorem contains_despawn (h : w.Sound) (e e' : Entity) :
    (w.despawn e).1.contains e' = (!decide (e' = e) && w.contains e') := by
  unfold contains
  rw [being?_despawn e h]
  by_cases he : e' = e <;> simp [he]

/-- Instances go with their entity. -/
theorem tagsOn_despawn (h : w.Sound) (e e' : Entity) :
    (w.despawn e).1.tagsOn e' = if e' = e then [] else w.tagsOn e' := by
  unfold tagsOn instancesOn
  rw [being?_despawn e h]
  by_cases he : e' = e <;> simp [he]

@[simp] theorem contains_addInstance (h : w.Sound) (e : Entity) (i : Instance) (e' : Entity) :
    (w.addInstance e i).contains e' = w.contains e' := by
  unfold contains
  rw [being?_addInstance h]
  by_cases he : e' = e <;> simp [he]

/-- An instance that is made comes last on its entity. -/
theorem instancesOn_addInstance (h : w.Sound) {e : Entity} (hc : w.contains e = true) (i : Instance)
    (e' : Entity) : (w.addInstance e i).instancesOn e' =
      if e' = e then w.instancesOn e' ++ [i] else w.instancesOn e' := by
  obtain ⟨b, hb⟩ := Option.isSome_iff_exists.1 hc
  unfold instancesOn
  rw [being?_addInstance h, hb]
  by_cases he : e' = e
  · simp [he, hb, Being.instances]
  · simp [he]

theorem tagsOn_addInstance (h : w.Sound) {e : Entity} (hc : w.contains e = true) (i : Instance)
    (e' : Entity) : (w.addInstance e i).tagsOn e' =
      if e' = e then w.tagsOn e' ++ [(i.id, i.type)] else w.tagsOn e' := by
  unfold tagsOn
  rw [instancesOn_addInstance h hc]
  by_cases he : e' = e
  · rw [if_pos he, if_pos he, List.map_append, List.map_singleton]
  · rw [if_neg he, if_neg he]

@[simp] theorem contains_removeInstance (r : InstanceRef) (e : Entity) :
    (w.removeInstance r).contains e = w.contains e := by
  unfold contains
  rw [being?_removeInstance, Option.isSome_map]

/-- The others on its entity close ranks when an instance is removed. -/
theorem instancesOn_removeInstance (h : w.Sound) (r : InstanceRef) (e : Entity) :
    (w.removeInstance r).instancesOn e =
      if e = r.entity then (w.instancesOn e).filter fun i => i.id ≠ r.id else w.instancesOn e := by
  unfold instancesOn
  rw [being?_removeInstance]
  cases hb : w.being? e with
  | none => simp
  | some b =>
    have hbe := (h.being?_iff.1 hb).2
    by_cases he : e = r.entity
    · cases hlist : b.behaviours <;> simp [hbe, he, hlist, Being.instances]
    · simp [hbe, he, Being.instances]

theorem tagsOn_removeInstance (h : w.Sound) (r : InstanceRef) (e : Entity) :
    (w.removeInstance r).tagsOn e =
      if e = r.entity then (w.tagsOn e).filter fun x => x.1 ≠ r.id else w.tagsOn e := by
  unfold tagsOn
  rw [instancesOn_removeInstance h]
  by_cases he : e = r.entity
  · rw [if_pos he, if_pos he, List.filter_map]
    rfl
  · rw [if_neg he, if_neg he]

/-- A change that leaves every entity its instances, as far as numbers and types go. -/
theorem tagsOn_mapBeings {f : Being → Being} (hf : ∀ b, (f b).entity = b.entity)
    (htags : ∀ b, (f b).instances.map (fun i => (i.id, i.type)) =
      b.instances.map fun i => (i.id, i.type)) (e : Entity) :
    (w.mapBeings f).tagsOn e = w.tagsOn e := by
  unfold tagsOn instancesOn
  rw [being?_mapBeings hf]
  cases w.being? e with
  | none => rfl
  | some b => exact htags b

theorem contains_mapBeings {f : Being → Being} (hf : ∀ b, (f b).entity = b.entity) (e : Entity) :
    (w.mapBeings f).contains e = w.contains e := by
  unfold contains
  rw [being?_mapBeings hf, Option.isSome_map]

end changes

end World

/-! ## Section 2 - ticks

    A tick goes through the rows of all tables and leaves each where it stands. -/

namespace Ticked

variable {α β : Type}

@[simp] theorem andThen_value (t : Ticked α) (f : α → Ticked β) :
    (t.andThen f).value = (f t.value).value :=
  rfl

@[simp] theorem forAll_value (f : α → Ticked α) (l : List α) :
    (forAll f l).value = l.map fun a => (f a).value := by
  induction l with
  | nil => rfl
  | cons a rest ih => simp [forAll, ih]

end Ticked

@[simp] theorem Instance.tick_id (i : Instance) (engine : Engine) (name : String) (dt : Float32) :
    (i.tick engine name dt).value.id = i.id := by
  unfold Instance.tick
  split <;> rfl

@[simp] theorem Instance.tick_type (i : Instance) (engine : Engine) (name : String)
    (dt : Float32) : (i.tick engine name dt).value.type = i.type := by
  unfold Instance.tick
  split <;> rfl

@[simp] theorem Being.tick_entity (b : Being) (engine : Engine) (dt : Float32) :
    (b.tick engine dt).value.entity = b.entity := by
  unfold Being.tick
  split <;> rfl

theorem Being.tick_tags (b : Being) (engine : Engine) (dt : Float32) :
    (b.tick engine dt).value.instances.map (fun i => (i.id, i.type)) =
      b.instances.map fun i => (i.id, i.type) := by
  unfold Being.tick
  split
  · rfl
  · next is hb => simp [Being.instances, hb, Function.comp_def]

theorem World.tick_value (w : World) (engine : Engine) (dt : Float32) :
    (w.tick engine dt).value = w.mapBeings fun b => (b.tick engine dt).value := by
  simp [World.tick, World.mapBeings]

/-! ## Section 3 - operations of a stage -/

namespace Stage

@[simp] theorem world_sync (s : Stage) (modules : ModuleSet) : (s.sync modules).world = s.world := by
  unfold sync; split <;> rfl

@[simp] theorem nextInstance_sync (s : Stage) (modules : ModuleSet) :
    (s.sync modules).nextInstance = s.nextInstance := by
  unfold sync; split <;> rfl

@[simp] theorem world_follow (s : Stage) (modules : ModuleSet) :
    (s.follow modules).world = s.world := by
  simp [follow]

@[simp] theorem nextInstance_follow (s : Stage) (modules : ModuleSet) :
    (s.follow modules).nextInstance = s.nextInstance := by
  simp [follow]

theorem world_tick (s : Stage) (modules : ModuleSet) (dt : Float32) :
    (s.tick modules dt).value.world =
      s.world.mapBeings fun b => (b.tick (s.sync modules).engine dt).value := by
  simp [tick, World.tick_value]

@[simp] theorem nextInstance_tick (s : Stage) (modules : ModuleSet) (dt : Float32) :
    (s.tick modules dt).value.nextInstance = s.nextInstance := by
  simp [tick]

/-- Everything that a request for an instance can come to: the entity is gone, the statements of the
    type fail, or the instance is made, under the next number and at the end of the list.  The first
    two leave the world as it was. -/
theorem addBehaviour_cases (s : Stage) (modules : ModuleSet) (e : Entity) (type : BehaviourType) :
    (s.world.contains e = false ∧ s.addBehaviour modules e type = ⟨s, .error (.entityNotFound e), []⟩) ∨
    (s.world.contains e = true ∧ ∃ fault printed,
      (type.program.instantiate (s.sync modules).engine).result = .error fault ∧
      s.addBehaviour modules e type =
        ⟨s.sync modules, .error (.refused e type.name fault.message), printed⟩) ∨
    (s.world.contains e = true ∧ ∃ fields printed,
      (type.program.instantiate (s.sync modules).engine).result = .ok fields ∧
      s.addBehaviour modules e type =
        ⟨{ s.sync modules with
            world := s.world.addInstance e ⟨s.nextInstance, type, fields, false⟩
            nextInstance := s.nextInstance + 1 },
          .ok ⟨e, s.nextInstance⟩, printed⟩) := by
  unfold addBehaviour
  cases hc : s.world.contains e with
  | false => exact .inl ⟨rfl, by simp⟩
  | true =>
    right
    cases hr : (type.program.instantiate (s.sync modules).engine).result with
    | error fault =>
      exact .inl ⟨rfl, fault, (type.program.instantiate (s.sync modules).engine).printed, rfl,
        by simp [hr]⟩
    | ok fields =>
      exact .inr ⟨rfl, fields, (type.program.instantiate (s.sync modules).engine).printed, rfl,
        by simp [hr]⟩

/-- Numbers of instances are only handed out. -/
theorem le_nextInstance_addBehaviour (s : Stage) (modules : ModuleSet) (e : Entity)
    (type : BehaviourType) : s.nextInstance ≤ (s.addBehaviour modules e type).host.nextInstance := by
  rcases s.addBehaviour_cases modules e type with ⟨-, heq⟩ | ⟨-, fault, printed, -, heq⟩ |
    ⟨-, fields, printed, -, heq⟩ <;> simp only [heq]
  · exact Nat.le_refl _
  · exact Nat.le_of_eq (s.nextInstance_sync modules).symm
  · exact Nat.le_succ _

theorem sound_addBehaviour {s : Stage} (h : s.world.Sound) (modules : ModuleSet) (e : Entity)
    (type : BehaviourType) : (s.addBehaviour modules e type).host.world.Sound := by
  rcases s.addBehaviour_cases modules e type with ⟨-, heq⟩ | ⟨-, fault, printed, -, heq⟩ |
    ⟨-, fields, printed, -, heq⟩ <;> rw [heq]
  · exact h
  · show (s.sync modules).world.Sound
    rw [world_sync]
    exact h
  · exact h.addInstance e _

/-- Nobody comes to life or dies by a request. -/
theorem contains_addBehaviour {s : Stage} (h : s.world.Sound) (modules : ModuleSet) (e : Entity)
    (type : BehaviourType) (e' : Entity) :
    (s.addBehaviour modules e type).host.world.contains e' = s.world.contains e' := by
  rcases s.addBehaviour_cases modules e type with ⟨-, heq⟩ | ⟨-, fault, printed, -, heq⟩ |
    ⟨-, fields, printed, -, heq⟩ <;> rw [heq]
  · show (s.sync modules).world.contains e' = s.world.contains e'
    rw [world_sync]
  · exact World.contains_addInstance h e _ e'

/-- A stage that has caught up with the modules has nothing left to catch up with. -/
theorem sync_sync (s : Stage) (modules : ModuleSet) : (s.sync modules).sync modules = s.sync modules := by
  unfold sync
  by_cases hf : s.following = true
  · simp [hf]
  · simp [hf]

/-- Which statements run to their end does not change with the instances that are made. -/
theorem engine_addBehaviour (s : Stage) (modules : ModuleSet) (e : Entity) (type : BehaviourType) :
    ((s.addBehaviour modules e type).host.sync modules).engine = (s.sync modules).engine := by
  have hworld : ∀ (t : Stage) (world : World) (next : Nat),
      ({ t with world := world, nextInstance := next }.sync modules).engine = (t.sync modules).engine := by
    intro t world next
    unfold sync
    split <;> rfl
  rcases s.addBehaviour_cases modules e type with ⟨-, heq⟩ | ⟨-, fault, printed, -, heq⟩ |
    ⟨-, fields, printed, -, heq⟩ <;> simp only [heq]
  · rw [sync_sync]
  · rw [hworld, sync_sync]

/-- Removing an instance from an entity that is gone changes nothing. -/
theorem destroyBehaviour_cases (s : Stage) (r : InstanceRef) :
    (s.world.contains r.entity = false ∧
      s.destroyBehaviour r = (s, .error (.entityNotFound r.entity))) ∨
    (s.world.contains r.entity = true ∧
      s.destroyBehaviour r = ({ s with world := s.world.removeInstance r }, .ok ())) := by
  unfold destroyBehaviour
  cases hc : s.world.contains r.entity with
  | false => exact .inl ⟨rfl, by simp⟩
  | true => exact .inr ⟨rfl, by simp⟩

theorem sound_destroyBehaviour {s : Stage} (h : s.world.Sound) (r : InstanceRef) :
    (s.destroyBehaviour r).1.world.Sound := by
  rcases s.destroyBehaviour_cases r with ⟨-, heq⟩ | ⟨-, heq⟩ <;> rw [heq]
  · exact h
  · exact h.removeInstance r

theorem contains_destroyBehaviour (s : Stage) (r : InstanceRef) (e : Entity) :
    (s.destroyBehaviour r).1.world.contains e = s.world.contains e := by
  rcases s.destroyBehaviour_cases r with ⟨-, heq⟩ | ⟨-, heq⟩ <;> rw [heq]
  exact World.contains_removeInstance r e

@[simp] theorem nextInstance_destroyBehaviour (s : Stage) (r : InstanceRef) :
    (s.destroyBehaviour r).1.nextInstance = s.nextInstance := by
  rcases s.destroyBehaviour_cases r with ⟨-, heq⟩ | ⟨-, heq⟩ <;> rw [heq]

end Stage

end HotReload
