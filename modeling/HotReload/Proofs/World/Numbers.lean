import HotReload.Proofs.World.Stage

/-! # The numbers of instances

    A stage numbers its instances as it makes them, and no number is given twice.  So
    along any run the numbers on an entity rise from the front of its list to the end,
    no number stands on two entities, and a number that has gone never returns.

    Everything that is done to a stage is one of seven *operations*.  What an operation does to an
    instance that is there can be told from the operation alone: it ends it, or it leaves it
    where it is. -/

namespace HotReload

namespace World
variable {w : World}

/-! ## Section 1 - instances of one entity -/

/-- Who was there before a spawn keeps its instances. -/
theorem instancesOn_spawn (h : w.Sound) (name : Option String) (behaviours : Option (List Instance))
    {e : Entity} (hc : w.contains e = true) :
    (w.spawn name behaviours).1.instancesOn e = w.instancesOn e := by
  have hne : e ≠ (w.spawn name behaviours).2 := by
    rintro rfl
    exact not_issued_spawn name behaviours h (h.issued hc)
  unfold instancesOn
  rw [being?_spawn name behaviours h, if_neg hne]

theorem instancesOn_despawn (h : w.Sound) (e e' : Entity) :
    (w.despawn e).1.instancesOn e' = if e' = e then [] else w.instancesOn e' := by
  unfold instancesOn
  rw [being?_despawn e h]
  by_cases he : e' = e <;> simp [he]

/-- Who carries something is there. -/
theorem contains_of_instance {e : Entity} {i : Instance} (hi : i ∈ w.instancesOn e) :
    w.contains e = true := by
  unfold instancesOn at hi
  unfold contains
  cases hb : w.being? e with
  | none => simp [hb] at hi
  | some b => rfl

theorem mem_tagsOn_of_instance {e : Entity} {i : Instance} (hi : i ∈ w.instancesOn e) :
    (i.id, i.type) ∈ w.tagsOn e :=
  List.mem_map_of_mem hi

end World

/-- An instance that has had a tick is ready, even if a hook of it failed. -/
@[simp] theorem Instance.tick_ready (i : Instance) (engine : Engine) (name : String) (dt : Float32) :
    (i.tick engine name dt).value.ready = true := by
  unfold Instance.tick
  split
  · next hready => exact hready
  · rfl

theorem Being.instances_tick (b : Being) (engine : Engine) (dt : Float32) :
    (b.tick engine dt).value.instances =
      b.instances.map fun i => (i.tick engine (b.name.getD "") dt).value := by
  unfold Being.tick
  split
  · next hb => simp [Being.instances, hb]
  · next is hb => simp [Being.instances, hb]

/-- A tick lets each instance on an entity run, and leaves it where it is. -/
theorem World.instancesOn_tick (w : World) (engine : Engine) (dt : Float32) (e : Entity) :
    (w.tick engine dt).value.instancesOn e =
      (w.instancesOn e).map fun i => (i.tick engine ((w.nameOf e).getD "") dt).value := by
  unfold instancesOn nameOf
  rw [tick_value, being?_mapBeings fun b => b.tick_entity engine dt]
  cases w.being? e with
  | none => rfl
  | some b => exact b.instances_tick engine dt

theorem Stage.instancesOn_tick (s : Stage) (modules : ModuleSet) (dt : Float32) (e : Entity) :
    (s.tick modules dt).value.world.instancesOn e =
      (s.world.instancesOn e).map fun i =>
        (i.tick (s.sync modules).engine ((s.world.nameOf e).getD "") dt).value := by
  rw [world_tick, ← World.tick_value, World.instancesOn_tick]

namespace Stage

/-! ## Section 2 - operations -/

/-- One thing that is done to a stage.  Where the stage may look at the module set, the operation carries the
    set as it is by then. -/
inductive Op where
  | spawnNamed (name : String)
  | spawnBare (name : Option String)
  | despawn (e : Entity)
  | follow (modules : ModuleSet)
  | add (modules : ModuleSet) (e : Entity) (type : BehaviourType)
  | destroy (r : InstanceRef)
  | tick (modules : ModuleSet) (dt : Float32)

/-- The stage after an operation. -/
def act (s : Stage) : Op → Stage
  | .spawnNamed name => (s.spawnNamed name).1
  | .spawnBare name => (s.spawnBare name).1
  | .despawn e => (s.despawn e).1
  | .follow modules => s.follow modules
  | .add modules e type => (s.addBehaviour modules e type).host
  | .destroy r => (s.destroyBehaviour r).1
  | .tick modules dt => (s.tick modules dt).value

/-- The stage after some operations. -/
def run (s : Stage) (ops : List Op) : Stage := ops.foldl act s

/-- The operations that put an end to an instance. -/
def Op.ends (r : InstanceRef) : Op → Bool
  | .despawn e => e = r.entity
  | .destroy r' => r' = r
  | _ => false

/-- Whether an operation is a tick. -/
def Op.isTick : Op → Bool
  | .tick .. => true
  | _ => false

theorem sound_act {s : Stage} (h : s.world.Sound) (d : Op) : (s.act d).world.Sound := by
  cases d with
  | spawnNamed name => exact World.Sound.spawn _ _ h
  | spawnBare name => exact World.Sound.spawn _ _ h
  | despawn e => exact World.Sound.despawn _ h
  | follow modules => exact (s.world_follow modules).symm ▸ h
  | add modules e type => exact sound_addBehaviour h modules e type
  | destroy r => exact sound_destroyBehaviour h r
  | tick modules dt =>
    show (s.tick modules dt).value.world.Sound
    rw [world_tick]
    exact h.mapBeings fun b => b.tick_entity _ dt

/-- Everything that an operation can do to the tags: it takes some away, or it makes one instance, under the next number
    and at the end of the list. -/
theorem act_tags {s : Stage} (h : s.world.Sound) (d : Op) :
    ((s.act d).nextInstance = s.nextInstance ∧
      ∀ e, ((s.act d).world.tagsOn e).Sublist (s.world.tagsOn e)) ∨
    ∃ e type, (s.act d).nextInstance = s.nextInstance + 1 ∧
      ∀ e', (s.act d).world.tagsOn e' =
        if e' = e then s.world.tagsOn e' ++ [(s.nextInstance, type)] else s.world.tagsOn e' := by
  -- all but three operations leave the instances that there are
  have hsame : ∀ {s' : Stage}, s'.nextInstance = s.nextInstance →
      (∀ e, s'.world.tagsOn e = s.world.tagsOn e) →
      s'.nextInstance = s.nextInstance ∧ ∀ e, (s'.world.tagsOn e).Sublist (s.world.tagsOn e) :=
    fun hnext htags => ⟨hnext, fun e => htags e ▸ List.Sublist.refl _⟩
  cases d with
  | spawnNamed name =>
    have hempty : (some [] : Option (List Instance)).getD [] = [] := rfl
    exact .inl (hsame rfl (World.tagsOn_spawn h (some name) hempty))
  | spawnBare name =>
    have hempty : (none : Option (List Instance)).getD [] = [] := rfl
    exact .inl (hsame rfl (World.tagsOn_spawn h name hempty))
  | despawn e =>
    refine .inl ⟨rfl, fun e' => ?_⟩
    show ((s.world.despawn e).1.tagsOn e').Sublist _
    rw [World.tagsOn_despawn h]
    split
    · exact List.nil_sublist _
    · exact List.Sublist.refl _
  | follow modules =>
    exact .inl (hsame (s.nextInstance_follow modules) fun e => congrArg (·.tagsOn e) (s.world_follow modules))
  | add modules e type =>
    simp only [act]
    rcases s.addBehaviour_cases modules e type with ⟨-, heq⟩ | ⟨-, fault, printed, -, heq⟩ |
      ⟨hc, fields, printed, -, heq⟩ <;> rw [heq]
    · exact .inl (hsame rfl fun _ => rfl)
    · exact .inl (hsame (s.nextInstance_sync modules) fun e => congrArg (·.tagsOn e) (s.world_sync modules))
    · exact .inr ⟨e, type, rfl, World.tagsOn_addInstance h hc _⟩
  | destroy r =>
    left
    simp only [act]
    rcases s.destroyBehaviour_cases r with ⟨-, heq⟩ | ⟨-, heq⟩ <;> rw [heq]
    · exact hsame rfl fun _ => rfl
    · refine ⟨rfl, fun e => ?_⟩
      rw [World.tagsOn_removeInstance h]
      split
      · exact List.filter_sublist
      · exact List.Sublist.refl _
  | tick modules dt =>
    refine .inl (hsame (s.nextInstance_tick modules dt) fun e => ?_)
    show (s.tick modules dt).value.world.tagsOn e = _
    rw [world_tick, World.tagsOn_mapBeings (fun b => b.tick_entity _ dt) fun b => b.tick_tags _ dt]

/-! ## Section 3 - numbers -/

/-- The numbers on each entity rise, they are below the next one, and no number is on two entities. -/
structure Numbered (s : Stage) : Prop where
  sound : s.world.Sound
  below : ∀ e, ∀ tag ∈ s.world.tagsOn e, tag.1 < s.nextInstance
  rising : ∀ e, ((s.world.tagsOn e).map Prod.fst).Pairwise (· < ·)
  apart : ∀ e e', ∀ tag ∈ s.world.tagsOn e, ∀ tag' ∈ s.world.tagsOn e', tag.1 = tag'.1 → e = e'

namespace Numbered
variable {s s' : Stage}

/-- A change after which every entity carries a part of what it carried. -/
theorem of_sublist (h : s.Numbered) (hsound : s'.world.Sound) (hnext : s'.nextInstance = s.nextInstance)
    (hsub : ∀ e, (s'.world.tagsOn e).Sublist (s.world.tagsOn e)) : s'.Numbered where
  sound := hsound
  below := fun e tag htag => hnext ▸ h.below e tag ((hsub e).mem htag)
  rising := fun e => (h.rising e).sublist ((hsub e).map Prod.fst)
  apart := fun e e' tag htag tag' htag' =>
    h.apart e e' tag ((hsub e).mem htag) tag' ((hsub e').mem htag')

/-- A new instance comes last on its entity, and its number is above all that were given. -/
theorem of_made (h : s.Numbered) (hsound : s'.world.Sound) {e : Entity} {type : BehaviourType}
    (hnext : s'.nextInstance = s.nextInstance + 1)
    (htags : ∀ e', s'.world.tagsOn e' =
      if e' = e then s.world.tagsOn e' ++ [(s.nextInstance, type)] else s.world.tagsOn e') :
    s'.Numbered := by
  have hmem : ∀ e', ∀ tag ∈ s'.world.tagsOn e',
      tag ∈ s.world.tagsOn e' ∨ e' = e ∧ tag.1 = s.nextInstance := by
    intro e' tag htag
    rw [htags] at htag
    by_cases he : e' = e
    · rw [if_pos he] at htag
      rcases List.mem_append.1 htag with hold | hnew
      · exact .inl hold
      · exact .inr ⟨he, by rw [List.mem_singleton.1 hnew]⟩
    · rw [if_neg he] at htag
      exact .inl htag
  refine ⟨hsound, ?_, ?_, ?_⟩
  · intro e' tag htag
    rw [hnext]
    rcases hmem e' tag htag with hold | ⟨-, hnew⟩
    · exact Nat.lt_succ_of_lt (h.below e' tag hold)
    · exact hnew ▸ Nat.lt_succ_self _
  · intro e'
    rw [htags]
    split
    · rw [List.map_append, List.pairwise_append]
      refine ⟨h.rising e', List.pairwise_singleton _ _, fun id hid id' hid' => ?_⟩
      obtain ⟨tag, htag, rfl⟩ := List.mem_map.1 hid
      rw [List.mem_singleton.1 hid']
      exact h.below e' tag htag
    · exact h.rising e'
  · intro e₁ e₂ tag₁ htag₁ tag₂ htag₂ hid
    rcases hmem e₁ tag₁ htag₁ with hold₁ | ⟨he₁, hnew₁⟩ <;> rcases hmem e₂ tag₂ htag₂ with hold₂ | ⟨he₂, hnew₂⟩
    · exact h.apart e₁ e₂ tag₁ hold₁ tag₂ hold₂ hid
    · exact absurd (h.below e₁ tag₁ hold₁) (by rw [hid, hnew₂]; exact Nat.lt_irrefl _)
    · exact absurd (h.below e₂ tag₂ hold₂) (by rw [← hid, hnew₁]; exact Nat.lt_irrefl _)
    · rw [he₁, he₂]

theorem act (h : s.Numbered) (d : Op) : (s.act d).Numbered := by
  rcases act_tags h.sound d with ⟨hnext, hsub⟩ | ⟨e, type, hnext, htags⟩
  · exact h.of_sublist (sound_act h.sound d) hnext hsub
  · exact h.of_made (sound_act h.sound d) hnext htags

theorem run (h : s.Numbered) (ops : List Op) : (s.run ops).Numbered := by
  induction ops generalizing s with
  | nil => exact h
  | cons d more ih => exact ih (h.act d)

end Numbered

theorem numbered_empty : Numbered {} where
  sound := World.sound_empty
  below := by simp [World.tagsOn, World.instancesOn, World.being?, World.beings]
  rising := by simp [World.tagsOn, World.instancesOn, World.being?, World.beings]
  apart := by simp [World.tagsOn, World.instancesOn, World.being?, World.beings]

/-! ## Section 4 - coming and going -/

/-- A stage carries an instance, which has had its first tick or not. -/
def Carries (s : Stage) (r : InstanceRef) (ready : Bool) : Prop :=
  ∃ i ∈ s.world.instancesOn r.entity, i.id = r.id ∧ i.ready = ready

/-- A number that was given and is on no instance any more. -/
structure Spent (s : Stage) (n : Nat) : Prop where
  given : n < s.nextInstance
  nowhere : ∀ e, ∀ tag ∈ s.world.tagsOn e, tag.1 ≠ n

section steps
variable {s : Stage} {r : InstanceRef} {ready : Bool}

/-- An instance stays where it is until an operation ends it, and a tick is what makes it ready. -/
theorem Carries.act (hs : s.Numbered) (h : s.Carries r ready) {d : Op} (hd : d.ends r = false) :
    (s.act d).Carries r (ready || d.isTick) := by
  obtain ⟨i, hi, hid, hready⟩ := h
  have hc := World.contains_of_instance hi
  -- Most operations leave the list of the entity as it is, or put something behind it.
  have hkept : ∀ {t : Stage}, i ∈ t.world.instancesOn r.entity → t.Carries r (ready || false) :=
    fun hmem => ⟨i, hmem, hid, by rw [hready, Bool.or_false]⟩
  cases d with
  | spawnNamed name => exact hkept ((World.instancesOn_spawn hs.sound (some name) (some []) hc).symm ▸ hi)
  | spawnBare name => exact hkept ((World.instancesOn_spawn hs.sound name none hc).symm ▸ hi)
  | despawn e =>
    refine hkept (t := (s.despawn e).1) ?_
    have hne : r.entity ≠ e := fun he => by simp [Op.ends, he] at hd
    exact (World.instancesOn_despawn hs.sound e r.entity).symm ▸ (if_neg hne).symm ▸ hi
  | follow modules => exact hkept (t := s.follow modules) ((s.world_follow modules).symm ▸ hi)
  | add modules e type =>
    refine hkept (t := (s.addBehaviour modules e type).host) ?_
    rcases s.addBehaviour_cases modules e type with ⟨-, heq⟩ | ⟨-, fault, printed, -, heq⟩ |
      ⟨hce, fields, printed, -, heq⟩ <;> rw [heq]
    · exact hi
    · exact (s.world_sync modules).symm ▸ hi
    · show i ∈ (s.world.addInstance e _).instancesOn r.entity
      rw [World.instancesOn_addInstance hs.sound hce]
      split
      · exact List.mem_append_left _ hi
      · exact hi
  | destroy r' =>
    refine hkept (t := (s.destroyBehaviour r').1) ?_
    rcases s.destroyBehaviour_cases r' with ⟨-, heq⟩ | ⟨-, heq⟩ <;> rw [heq]
    · exact hi
    · show i ∈ (s.world.removeInstance r').instancesOn r.entity
      rw [World.instancesOn_removeInstance hs.sound]
      split
      · next he =>
        refine List.mem_filter.2 ⟨hi, decide_eq_true fun hid' => ?_⟩
        -- An instance with this number on this entity would be the one that is destroyed.
        obtain ⟨e, n⟩ := r
        obtain ⟨e', n'⟩ := r'
        simp only at he hid hid'
        subst he hid hid'
        simp [Op.ends] at hd
      · exact hi
  | tick modules dt =>
    refine ⟨(i.tick (s.sync modules).engine ((s.world.nameOf r.entity).getD "") dt).value, ?_, ?_, ?_⟩
    · show _ ∈ (s.tick modules dt).value.world.instancesOn r.entity
      rw [instancesOn_tick]
      exact List.mem_map_of_mem hi
    · rw [Instance.tick_id, hid]
    · rw [Instance.tick_ready]
      exact (Bool.or_true ready).symm

/-- A number that has gone does not return. -/
theorem Spent.act {n : Nat} (hs : s.Numbered) (h : s.Spent n) (d : Op) : (s.act d).Spent n := by
  rcases act_tags hs.sound d with ⟨hnext, hsub⟩ | ⟨e, type, hnext, htags⟩
  · exact ⟨hnext ▸ h.given, fun e tag htag => h.nowhere e tag ((hsub e).mem htag)⟩
  · refine ⟨hnext ▸ Nat.lt_succ_of_lt h.given, fun e' tag htag => ?_⟩
    rw [htags] at htag
    split at htag
    · rcases List.mem_append.1 htag with hold | hnew
      · exact h.nowhere e' tag hold
      · rw [List.mem_singleton.1 hnew]
        exact (Nat.ne_of_lt h.given).symm
    · exact h.nowhere e' tag htag

/-- An operation that ends an instance leaves nothing of it. -/
theorem Carries.spent (hs : s.Numbered) (h : s.Carries r ready) {d : Op} (hd : d.ends r = true) :
    (s.act d).Spent r.id := by
  obtain ⟨i, hi, hid, -⟩ := h
  have htag := World.mem_tagsOn_of_instance hi
  have hgiven : r.id < s.nextInstance := hid ▸ hs.below r.entity _ htag
  -- The number stands on the entity of the instance and on no other.
  have helse : ∀ e, ∀ tag ∈ s.world.tagsOn e, tag.1 = r.id → e = r.entity :=
    fun e tag hmem heq => hs.apart e r.entity tag hmem _ htag (heq.trans hid.symm)
  cases d with
  | despawn e =>
    have he : e = r.entity := by simpa [Op.ends] using hd
    refine ⟨hgiven, fun e' tag hmem heq => ?_⟩
    replace hmem : tag ∈ (s.world.despawn e).1.tagsOn e' := hmem
    rw [World.tagsOn_despawn hs.sound] at hmem
    split at hmem
    · exact absurd hmem List.not_mem_nil
    · next hne => exact hne (he ▸ helse e' tag hmem heq)
  | destroy r' =>
    have hr : r' = r := by simpa [Op.ends] using hd
    subst hr
    show (s.destroyBehaviour r').1.Spent r'.id
    rcases s.destroyBehaviour_cases r' with ⟨hgone, -⟩ | ⟨-, heq⟩
    · exact absurd (World.contains_of_instance hi) (by simp [hgone])
    · rw [heq]
      refine ⟨hgiven, fun e' tag hmem hid' => ?_⟩
      replace hmem : tag ∈ (s.world.removeInstance r').tagsOn e' := hmem
      rw [World.tagsOn_removeInstance hs.sound] at hmem
      split at hmem
      · exact of_decide_eq_true (List.mem_filter.1 hmem).2 hid'
      · next hne => exact hne (helse e' tag hmem hid')
  | _ => simp [Op.ends] at hd

/-- A request that succeeds leaves an instance that has not had its first tick. -/
theorem carries_of_added (hs : s.Numbered) {modules : ModuleSet} {e : Entity} {type : BehaviourType}
    (h : (s.addBehaviour modules e type).result = .ok r) :
    (s.addBehaviour modules e type).host.Carries r false := by
  rcases s.addBehaviour_cases modules e type with ⟨-, heq⟩ | ⟨-, fault, printed, -, heq⟩ |
    ⟨hc, fields, printed, -, heq⟩ <;> rw [heq] at h ⊢
  · cases h
  · cases h
  · cases h
    refine ⟨⟨s.nextInstance, type, fields, false⟩, ?_, rfl, rfl⟩
    show _ ∈ (s.world.addInstance e _).instancesOn e
    rw [World.instancesOn_addInstance hs.sound hc, if_pos rfl]
    exact List.mem_append_right _ List.mem_cons_self

end steps

end Stage

end HotReload
