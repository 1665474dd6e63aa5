import HotReload.Proofs.World.Installation

/-! # The books of a stage

    Instances come and go by requests, and a request may name an entity that is gone, an
    instance that is gone, or an instance of another entity.  Whatever it names, it changes
    one list at most, and a request that fails changes none.

    A request that fails does leave something behind: the stage has caught up with the
    module set by then.  But it would have caught up before the next script ran in any
    case, so nothing that comes later can tell the difference, as long as the stage is not
    told to follow another set. -/

namespace HotReload

namespace World
variable {w : World}

/-! ## Section 1 - one entity apart from the others -/

theorem mapBeings_eq_self {f : Being → Being} (hf : ∀ b ∈ w.beings, f b = b) : w.mapBeings f = w := by
  have htables : ∀ t ∈ w.tables, { t with rows := t.rows.map f } = t := by
    intro t ht
    have hrows : t.rows.map f = t.rows := by
      conv_rhs => rw [← List.map_id t.rows]
      apply List.map_congr_left
      intro b hb
      exact hf b (List.mem_flatMap.2 ⟨t, ht, hb⟩)
    rw [hrows]
  have hmap : w.tables.map (fun t => { t with rows := t.rows.map f }) = w.tables := by
    conv_rhs => rw [← List.map_id w.tables]
    exact List.map_congr_left htables
  unfold mapBeings
  rw [hmap]

/-- Removing an instance that is not on the entity changes nothing at all. -/
theorem removeInstance_of_absent (h : w.Sound) {r : InstanceRef}
    (habsent : ∀ i ∈ w.instancesOn r.entity, i.id ≠ r.id) : w.removeInstance r = w := by
  apply mapBeings_eq_self
  intro b hb
  by_cases hbe : b.entity = r.entity
  · have hlist : w.instancesOn r.entity = b.instances := by
      unfold instancesOn
      rw [h.being?_iff.2 ⟨hb, hbe⟩]
      rfl
    rw [if_pos hbe]
    obtain ⟨entity, name, behaviours⟩ := b
    cases behaviours with
    | none => rfl
    | some is =>
      have hfilter : is.filter (fun i => i.id ≠ r.id) = is := by
        apply List.filter_eq_self.2
        intro i hi
        exact decide_eq_true (habsent i (hlist ▸ hi))
      simp only [Option.map_some, hfilter]
  · rw [if_neg hbe]

theorem being?_removeInstance_ne (h : w.Sound) {r : InstanceRef} {e : Entity} (he : e ≠ r.entity) :
    (w.removeInstance r).being? e = w.being? e := by
  rw [being?_removeInstance]
  cases hb : w.being? e with
  | none => rfl
  | some b =>
    have hbe := (h.being?_iff.1 hb).2
    rw [Option.map_some, if_neg (by rw [hbe]; exact he)]

theorem nameOf_removeInstance (r : InstanceRef) (e : Entity) : (w.removeInstance r).nameOf e = w.nameOf e := by
  unfold nameOf
  rw [being?_removeInstance]
  cases w.being? e with
  | none => rfl
  | some b =>
    simp only [Option.map_some, Option.bind_some]
    split <;> rfl

theorem nameOf_addInstance (h : w.Sound) (e : Entity) (i : Instance) (e' : Entity) :
    (w.addInstance e i).nameOf e' = w.nameOf e' := by
  unfold nameOf
  rw [being?_addInstance h]
  by_cases he : e' = e
  · subst he
    rw [if_pos rfl]
    cases w.being? e' <;> rfl
  · rw [if_neg he]

end World

namespace Stage

/-! ## Section 2 - single requests -/

/-- What a request that succeeds has done: one more instance stands at the end of one list. -/
structure Adds (s s' : Stage) (e : Entity) (type : BehaviourType) (r : InstanceRef) : Prop where
  ref : r = ⟨e, s.nextInstance⟩
  /-- The instance has the type that was asked for and has not had a tick. -/
  on : ∃ i, i.id = r.id ∧ i.type = type ∧ i.ready = false ∧
    s'.world.instancesOn e = s.world.instancesOn e ++ [i]
  /-- Nothing about the others has changed, and of the entity nothing else. -/
  others : ∀ e' ≠ e, s'.world.being? e' = s.world.being? e'
  name : s'.world.nameOf e = s.world.nameOf e
  next : s'.nextInstance = s.nextInstance + 1

/-- What the removal of an instance has done, whether there was such an instance or not. -/
structure Removes (s s' : Stage) (r : InstanceRef) : Prop where
  /-- If it was on the entity, it is taken out of the list, and the rest of the list is as before. -/
  present : ∀ front i back, s.world.instancesOn r.entity = front ++ i :: back → i.id = r.id →
    s'.world.instancesOn r.entity = front ++ back
  /-- If it was not there, everything is as before. -/
  absent : (∀ i ∈ s.world.instancesOn r.entity, i.id ≠ r.id) → s' = s
  others : ∀ e ≠ r.entity, s'.world.being? e = s.world.being? e
  name : s'.world.nameOf r.entity = s.world.nameOf r.entity
  next : s'.nextInstance = s.nextInstance

namespace Numbered
variable {s : Stage}

theorem ids_rising (h : s.Numbered) (e : Entity) :
    ((s.world.instancesOn e).map Instance.id).Pairwise (· < ·) := by
  have hrising := h.rising e
  unfold World.tagsOn at hrising
  rwa [List.map_map] at hrising

theorem adds (h : s.Numbered) {modules : ModuleSet} {e : Entity} {type : BehaviourType} {r : InstanceRef}
    (hr : (s.addBehaviour modules e type).result = .ok r) :
    s.Adds (s.addBehaviour modules e type).host e type r := by
  rcases s.addBehaviour_cases modules e type with ⟨-, heq⟩ | ⟨-, fault, printed, -, heq⟩ |
    ⟨hc, fields, printed, -, heq⟩ <;> rw [heq] at hr ⊢
  · cases hr
  · cases hr
  · cases hr
    refine ⟨rfl, ⟨⟨s.nextInstance, type, fields, false⟩, rfl, rfl, rfl, ?_⟩, ?_, ?_, rfl⟩
    · show (s.world.addInstance e _).instancesOn e = _
      rw [World.instancesOn_addInstance h.sound hc, if_pos rfl]
    · intro e' he
      show (s.world.addInstance e _).being? e' = _
      rw [World.being?_addInstance h.sound, if_neg he]
    · exact World.nameOf_addInstance h.sound e _ e

theorem removes (h : s.Numbered) (r : InstanceRef) : s.Removes (s.destroyBehaviour r).1 r := by
  rcases s.destroyBehaviour_cases r with ⟨hgone, heq⟩ | ⟨-, heq⟩ <;> rw [heq]
  · -- Who is gone carries nothing.
    refine ⟨?_, fun _ => rfl, fun _ _ => rfl, rfl, rfl⟩
    intro front i back hlist _
    have hi : i ∈ s.world.instancesOn r.entity := hlist ▸ List.mem_append_right _ List.mem_cons_self
    exact absurd (World.contains_of_instance hi) (by simp [hgone])
  · refine ⟨?_, ?_, ?_, World.nameOf_removeInstance r r.entity, rfl⟩
    · intro front i back hlist hid
      show (s.world.removeInstance r).instancesOn r.entity = _
      rw [World.instancesOn_removeInstance h.sound, if_pos rfl, hlist, List.filter_append, List.filter_cons,
        if_neg (by simpa using hid)]
      -- The numbers rise, so no other instance on the entity has this one.
      have hrising := h.ids_rising r.entity
      rw [hlist, List.map_append, List.map_cons, List.pairwise_append, List.pairwise_cons] at hrising
      obtain ⟨-, ⟨hback, -⟩, hfront⟩ := hrising
      congr 1
      · apply List.filter_eq_self.2
        intro j hj
        have hlt := hfront j.id (List.mem_map_of_mem hj) i.id List.mem_cons_self
        exact decide_eq_true (by omega)
      · apply List.filter_eq_self.2
        intro j hj
        have hlt := hback j.id (List.mem_map_of_mem hj)
        exact decide_eq_true (by omega)
    · intro habsent
      rw [World.removeInstance_of_absent h.sound habsent]
    · intro e he
      exact World.being?_removeInstance_ne h.sound he

end Numbered

/-! ## Section 3 - catching up sooner or later -/

/-- Catching up with a set twice, the second time when it has grown, is to catch up with it once. -/
theorem sync_grow {s : Stage} {modules modules' : ModuleSet} (hcaught : s.caughtUp ≤ modules.length)
    (hgrow : modules <+: modules') : (s.sync modules).sync modules' = s.sync modules' := by
  obtain ⟨gained, rfl⟩ := hgrow
  unfold sync
  by_cases hf : s.following = true
  · simp only [hf, if_true, List.append_assoc]
    rw [List.drop_left, List.drop_append_of_le_length hcaught, List.filter_append]
  · simp only [if_neg hf]

/-- It makes no difference to a request whether the stage has caught up before. -/
theorem sync_request (s : Stage) (modules : ModuleSet) (a : Request) :
    ((s.sync modules).act (a.op modules)).sync modules = (s.act (a.op modules)).sync modules := by
  have hworld : ∀ world : World, ({ s.sync modules with world } : Stage).sync modules =
      ({ s with world } : Stage).sync modules := by
    intro world
    unfold sync
    by_cases hf : s.following = true
    · simp [hf]
    · simp [hf]
  cases a with
  | spawnNamed name =>
    simp only [Request.op, act, spawnNamed, world_sync]
    exact hworld _
  | spawnBare name =>
    simp only [Request.op, act, spawnBare, world_sync]
    exact hworld _
  | despawn e =>
    simp only [Request.op, act, despawn, world_sync]
    exact hworld _
  | add e type =>
    simp only [Request.op, act, addBehaviour, world_sync, sync_sync, nextInstance_sync]
    by_cases hc : s.world.contains e = true
    · rw [if_pos hc, if_pos hc]
    · rw [if_neg hc, if_neg hc, sync_sync]
  | destroy r =>
    simp only [Request.op, act, destroyBehaviour, world_sync]
    by_cases hc : s.world.contains r.entity = true
    · rw [if_pos hc, if_pos hc]
      exact hworld _
    · rw [if_neg hc, if_neg hc, sync_sync]
  | tick dt =>
    simp only [Request.op, act, tick, sync_sync]

theorem result_addBehaviour_sync (s : Stage) (modules : ModuleSet) (e : Entity) (type : BehaviourType) :
    ((s.sync modules).addBehaviour modules e type).result = (s.addBehaviour modules e type).result := by
  simp only [addBehaviour, world_sync, sync_sync, nextInstance_sync]
  by_cases hc : s.world.contains e = true
  · rw [if_pos hc, if_pos hc]
  · rw [if_neg hc, if_neg hc]

end Stage

namespace ModuleSharing

/-! ## Section 4 - numbers along a run -/

/-- The number that a move gives out, if it makes an instance. -/
def Move.number? (s : ModuleSharing) : Move → Option Nat
  | .request (.add e type) =>
    match (s.stage.addBehaviour s.current e type).result with
    | .ok r => some r.id
    | .error _ => none
  | _ => none

/-- The numbers of all instances that are made in a run, in the order in which they are made. -/
def numbers (s : ModuleSharing) : List Move → List Nat
  | [] => []
  | move :: more => (move.number? s).toList ++ (s.act move).numbers more

theorem run_cons (s : ModuleSharing) (move : Move) (more : List Move) : s.run (move :: more) = (s.act move).run more :=
  rfl

theorem numbers_cons (s : ModuleSharing) (move : Move) (more : List Move) :
    s.numbers (move :: more) = (move.number? s).toList ++ (s.act move).numbers more :=
  rfl

/-- A move makes an instance under the next number, or it makes none.  Then what an entity carries was there before. -/
theorem number?_cases {s : ModuleSharing} (hs : s.stage.world.Sound) (move : Move) :
    (move.number? s = none ∧ (s.act move).stage.nextInstance = s.stage.nextInstance ∧
      ∀ e, ∀ tag ∈ (s.act move).stage.world.tagsOn e, tag ∈ s.stage.world.tagsOn e) ∨
    (move.number? s = some s.stage.nextInstance ∧
      (s.act move).stage.nextInstance = s.stage.nextInstance + 1 ∧
      ∀ e, ∀ tag ∈ (s.act move).stage.world.tagsOn e,
        tag ∈ s.stage.world.tagsOn e ∨ tag.1 = s.stage.nextInstance) := by
  -- an operation that gives out no number adds no instance
  have hkept : ∀ d : Stage.Op, (s.stage.act d).nextInstance = s.stage.nextInstance →
      ∀ e, ∀ tag ∈ (s.stage.act d).world.tagsOn e, tag ∈ s.stage.world.tagsOn e := by
    intro d hd e tag htag
    rcases Stage.act_tags hs d with ⟨-, hsub⟩ | ⟨-, -, hnext, -⟩
    · exact (hsub e).mem htag
    · omega
  cases move with
  | extend k m => exact .inl ⟨rfl, rfl, fun _ _ htag => htag⟩
  | share k =>
    have hnext := s.stage.nextInstance_follow (s.sets k)
    exact .inl ⟨rfl, hnext, hkept (.follow (s.sets k)) hnext⟩
  | request a =>
    cases a with
    | add e type =>
      simp only [act, Move.number?]
      rcases s.stage.addBehaviour_cases s.current e type with ⟨-, heq⟩ | ⟨-, fault, printed, -, heq⟩ |
        ⟨hc, fields, printed, -, heq⟩
      · left
        have hnext : (s.stage.act (.add s.current e type)).nextInstance = s.stage.nextInstance := by
          simp only [Stage.act, heq]
        exact ⟨by rw [heq], hnext, hkept _ hnext⟩
      · left
        have hnext : (s.stage.act (.add s.current e type)).nextInstance = s.stage.nextInstance := by
          simp only [Stage.act, heq, Stage.nextInstance_sync]
        exact ⟨by rw [heq], hnext, hkept _ hnext⟩
      · right
        refine ⟨by rw [heq], by simp only [Stage.Request.op, Stage.act, heq], ?_⟩
        intro e' tag htag
        simp only [Stage.Request.op, Stage.act, heq] at htag
        rw [World.tagsOn_addInstance hs hc] at htag
        split at htag
        · rcases List.mem_append.1 htag with hold | hnew
          · exact .inl hold
          · exact .inr (by rw [List.mem_singleton.1 hnew])
        · exact .inl htag
    | spawnNamed name => exact .inl ⟨rfl, rfl, hkept (.spawnNamed name) rfl⟩
    | spawnBare name => exact .inl ⟨rfl, rfl, hkept (.spawnBare name) rfl⟩
    | despawn e => exact .inl ⟨rfl, rfl, hkept (.despawn e) rfl⟩
    | destroy r =>
      have hnext := s.stage.nextInstance_destroyBehaviour r
      exact .inl ⟨rfl, hnext, hkept (.destroy r) hnext⟩
    | tick dt =>
      have hnext := s.stage.nextInstance_tick s.current dt
      exact .inl ⟨rfl, hnext, hkept (.tick s.current dt) hnext⟩

theorem numbered_act {s : ModuleSharing} (h : s.stage.Numbered) (move : Move) : (s.act move).stage.Numbered := by
  cases move with
  | extend k m => exact h
  | share k => exact h.act (.follow (s.sets k))
  | request a => exact h.act (a.op s.current)

theorem numbered_run {s : ModuleSharing} (h : s.stage.Numbered) (moves : List Move) :
    (s.run moves).stage.Numbered := by
  induction moves generalizing s with
  | nil => exact h
  | cons move more ih => exact ih (numbered_act h move)

/-- The numbers of a run are consecutive. -/
theorem numbers_eq {s : ModuleSharing} (h : s.stage.Numbered) (moves : List Move) :
    s.numbers moves = List.range' s.stage.nextInstance (s.numbers moves).length ∧
      (s.run moves).stage.nextInstance = s.stage.nextInstance + (s.numbers moves).length := by
  induction moves generalizing s with
  | nil => exact ⟨rfl, rfl⟩
  | cons move more ih =>
    obtain ⟨hnumbers, hnext⟩ := ih (numbered_act h move)
    rw [run_cons, numbers_cons, hnext]
    rcases number?_cases h.sound move with ⟨hnone, hsame, -⟩ | ⟨hsome, hone, -⟩
    · rw [hnone, Option.toList_none, List.nil_append, hsame]
      rw [hsame] at hnumbers
      exact ⟨hnumbers, rfl⟩
    · rw [hsome, Option.toList_some, List.singleton_append, List.length_cons, List.range'_succ, hone]
      rw [hone] at hnumbers
      exact ⟨congrArg _ hnumbers, by omega⟩

/-- Whatever an entity carries after a run was made in it, or was there from the beginning. -/
theorem id_mem_numbers {s : ModuleSharing} (h : s.stage.Numbered) (moves : List Move) {e : Entity}
    {tag : Nat × BehaviourType} (htag : tag ∈ (s.run moves).stage.world.tagsOn e) :
    tag ∈ s.stage.world.tagsOn e ∨ tag.1 ∈ s.numbers moves := by
  induction moves generalizing s with
  | nil => exact .inl htag
  | cons move more ih =>
    rw [numbers_cons]
    rcases ih (numbered_act h move) htag with hold | hmade
    · rcases number?_cases h.sound move with ⟨-, -, hkept⟩ | ⟨hsome, -, hkept⟩
      · exact .inl (hkept e tag hold)
      · rcases hkept e tag hold with hold | hnew
        · exact .inl hold
        · exact .inr (by rw [hsome, hnew]; exact List.mem_append_left _ List.mem_cons_self)
    · exact .inr (List.mem_append_right _ hmade)

/-! ## Section 5 - requests that fail -/

/-- Two states that differ at most in how far the stage has caught up with the set that it follows. -/
structure Abreast (s s' : ModuleSharing) : Prop where
  sets : s'.sets = s.sets
  followed : s'.followed = s.followed
  stage : s'.stage.sync s'.current = s.stage.sync s.current
  /-- Neither is ahead of the set. -/
  caught : s.stage.caughtUp ≤ s.current.length ∧ s'.stage.caughtUp ≤ s'.current.length

namespace Abreast
variable {s s' : ModuleSharing}

theorem current_eq (h : s.Abreast s') : s'.current = s.current := by
  unfold current
  rw [h.sets, h.followed]

theorem world_eq (h : s.Abreast s') : s'.stage.world = s.stage.world := by
  have hworld := congrArg Stage.world h.stage
  rwa [Stage.world_sync, Stage.world_sync] at hworld

theorem nextInstance_eq (h : s.Abreast s') : s'.stage.nextInstance = s.stage.nextInstance := by
  have hnext := congrArg Stage.nextInstance h.stage
  rwa [Stage.nextInstance_sync, Stage.nextInstance_sync] at hnext

theorem number?_eq (h : s.Abreast s') (move : Move) : move.number? s' = move.number? s := by
  cases move with
  | request a =>
    cases a with
    | add e type =>
      simp only [Move.number?]
      rw [← s'.stage.result_addBehaviour_sync, ← s.stage.result_addBehaviour_sync, h.stage, h.current_eq]
    | _ => rfl
  | _ => rfl

/-- A request does not get a stage ahead of the set. -/
theorem caught_request {s : ModuleSharing} (hcaught : s.stage.caughtUp ≤ s.current.length) (a : Stage.Request) :
    (s.stage.act (a.op s.current)).caughtUp ≤ s.current.length := by
  have hsync : (s.stage.sync s.current).caughtUp ≤ s.current.length := by
    unfold Stage.sync
    split
    · exact Nat.le_refl _
    · exact hcaught
  cases a with
  | add e type =>
    simp only [Stage.Request.op, Stage.act]
    rcases s.stage.addBehaviour_cases s.current e type with ⟨-, heq⟩ | ⟨-, fault, printed, -, heq⟩ |
      ⟨-, fields, printed, -, heq⟩ <;> rw [heq]
    · exact hcaught
    · exact hsync
    · exact hsync
  | destroy r =>
    simp only [Stage.Request.op, Stage.act]
    rcases s.stage.destroyBehaviour_cases r with ⟨-, heq⟩ | ⟨-, heq⟩ <;> rw [heq] <;> exact hcaught
  | tick dt => exact hsync
  | _ => exact hcaught

theorem request (h : s.Abreast s') (a : Stage.Request) : (s.act (.request a)).Abreast (s'.act (.request a)) where
  sets := h.sets
  followed := h.followed
  stage := by
    show (s'.stage.act (a.op s'.current)).sync s'.current = (s.stage.act (a.op s.current)).sync s.current
    rw [← s'.stage.sync_request, ← s.stage.sync_request, h.stage, h.current_eq]
  caught := ⟨caught_request h.caught.1 a, caught_request h.caught.2 a⟩

theorem extend (h : s.Abreast s') (k : Nat) (m : HostModule) :
    (s.act (.extend k m)).Abreast (s'.act (.extend k m)) := by
  have hgrow : ∀ t : ModuleSharing, t.current <+: (t.act (.extend k m)).current := by
    intro t
    unfold current act
    cases t.followed with
    | none => exact List.prefix_rfl
    | some k' =>
      simp only [Option.map_some, Option.getD_some]
      by_cases hk : k' = k
      · subst hk
        rw [Function.update_self]
        exact ModuleSet.prefix_add _ m
      · rewrite [Function.update_of_ne hk]
        exact List.prefix_rfl
  have hcurrent : (s'.act (.extend k m)).current = (s.act (.extend k m)).current := by
    unfold current act
    rw [h.sets, h.followed]
  refine ⟨by simp only [act, h.sets], h.followed, ?_, ?_, ?_⟩
  · -- To catch up with the grown set is to catch up with the set as it was first.
    show s'.stage.sync _ = s.stage.sync _
    rw [← Stage.sync_grow h.caught.2 (hgrow s'), ← Stage.sync_grow h.caught.1 (hgrow s), h.stage, hcurrent]
  · exact Nat.le_trans h.caught.1 (hgrow s).length_le
  · exact Nat.le_trans h.caught.2 (hgrow s').length_le

/-- Two such states stay so, and the same instances are made under the same numbers. -/
theorem run (h : s.Abreast s') {moves : List Move} (hmoves : ∀ k, .share k ∉ moves) :
    s'.numbers moves = s.numbers moves ∧ (s.run moves).Abreast (s'.run moves) := by
  induction moves generalizing s s' with
  | nil => exact ⟨rfl, h⟩
  | cons move more ih =>
    have hmore : ∀ k, .share k ∉ more := fun k hk => hmoves k (List.mem_cons_of_mem _ hk)
    have hstep : (s.act move).Abreast (s'.act move) := by
      cases move with
      | extend k m => exact h.extend k m
      | share k => exact absurd List.mem_cons_self (hmoves k)
      | request a => exact h.request a
    obtain ⟨hnumbers, hrun⟩ := ih hstep hmore
    refine ⟨?_, hrun⟩
    rw [numbers_cons, numbers_cons, h.number?_eq move, hnumbers]

end Abreast

/-- A request that fails leaves everybody and everything as it was, and what comes later comes as if it had not been
    made. -/
structure Ignores (s s' : ModuleSharing) : Prop where
  world : s'.stage.world = s.stage.world
  nextInstance : s'.stage.nextInstance = s.stage.nextInstance
  /-- Later requests get the numbers that they would have got, and later worlds are the same. -/
  later : ∀ moves : List Move, (∀ k, .share k ∉ moves) →
    s'.numbers moves = s.numbers moves ∧ (s'.run moves).stage.world = (s.run moves).stage.world

theorem Abreast.ignores {s s' : ModuleSharing} (h : s.Abreast s') : s.Ignores s' where
  world := h.world_eq
  nextInstance := h.nextInstance_eq
  later := fun _ hmoves => ⟨(h.run hmoves).1, (h.run hmoves).2.world_eq⟩

/-- A stage that has caught up, or has done nothing at all. -/
theorem Settled.abreast {s : ModuleSharing} (h : s.Settled) {stage : Stage}
    (hstage : stage = s.stage ∨ stage = s.stage.sync s.current) : s.Abreast { s with stage } := by
  have hcaught := h.supplied.caught
  rcases hstage with rfl | rfl
  · exact ⟨rfl, rfl, rfl, hcaught, hcaught⟩
  · exact ⟨rfl, rfl, s.stage.sync_sync s.current, hcaught, h.supplied.sync.caught⟩

/-! ## Section 6 - the books -/

/-- A state in which every request does what it says, or nothing. -/
structure Booked (s : ModuleSharing) : Prop where
  /-- The numbers on each entity rise. -/
  rising : ∀ e, ((s.stage.world.instancesOn e).map Instance.id).Pairwise (· < ·)
  /-- A request for an instance succeeds if the entity is there and the statements of the type run to their end. -/
  granted : ∀ e type, (∃ r, (s.stage.addBehaviour s.current e type).result = .ok r) ↔
    s.stage.world.contains e = true ∧ ∃ fields, (type.program.instantiate s.whole).result = .ok fields
  added : ∀ e type r, (s.stage.addBehaviour s.current e type).result = .ok r →
    s.stage.Adds (s.act (.request (.add e type))).stage e type r
  refused : ∀ e type fault, (s.stage.addBehaviour s.current e type).result = .error fault →
    s.Ignores (s.act (.request (.add e type)))
  /-- A request for a removal succeeds if the entity is there. -/
  heard : ∀ r, (s.stage.destroyBehaviour r).2 = .ok () ↔ s.stage.world.contains r.entity = true
  destroyed : ∀ r, s.stage.Removes (s.act (.request (.destroy r))).stage r
  unheard : ∀ r fault, (s.stage.destroyBehaviour r).2 = .error fault →
    s.Ignores (s.act (.request (.destroy r)))

theorem Settled.booked {s : ModuleSharing} (h : s.Settled) (hs : s.stage.Numbered) : s.Booked where
  rising := hs.ids_rising
  granted := by
    intro e type
    have hwhole : (s.stage.sync s.current).engine = s.whole := h.supplied.engine_sync
    rcases s.stage.addBehaviour_cases s.current e type with ⟨hgone, heq⟩ | ⟨hc, fault, printed, hfault, heq⟩ |
      ⟨hc, fields, printed, hfields, heq⟩ <;> rw [heq]
    · simp [hgone]
    · rw [hwhole] at hfault
      simp [hfault]
    · rw [hwhole] at hfields
      simp [hc, hfields]
  added := fun e type r hr => hs.adds hr
  refused := by
    intro e type fault hfault
    apply Abreast.ignores
    apply h.abreast
    simp only [Stage.Request.op, Stage.act]
    rcases s.stage.addBehaviour_cases s.current e type with ⟨-, heq⟩ | ⟨-, fault', printed, -, heq⟩ |
      ⟨-, fields, printed, -, heq⟩ <;> rw [heq] at hfault ⊢
    · exact .inl rfl
    · exact .inr rfl
    · cases hfault
  heard := by
    intro r
    rcases s.stage.destroyBehaviour_cases r with ⟨hgone, heq⟩ | ⟨hc, heq⟩ <;> rw [heq]
    · simp [hgone]
    · simp [hc]
  destroyed := hs.removes
  unheard := by
    intro r fault hfault
    apply Abreast.ignores
    apply h.abreast
    simp only [Stage.Request.op, Stage.act]
    rcases s.stage.destroyBehaviour_cases r with ⟨-, heq⟩ | ⟨-, heq⟩ <;> rw [heq] at hfault ⊢
    · exact .inl rfl
    · cases hfault

/-- Whatever is done to a stage, with whatever references: instances are numbered in the order in which they are made
    and no number is given twice, an entity lists its instances in that order, and each request changes the one list
    that it is about, or nothing. -/
theorem instances_are_booked (moves : List Move) :
    (numbers {} moves).Pairwise (· < ·) ∧
      (∀ e, ∀ i ∈ (run {} moves).stage.world.instancesOn e, i.id ∈ numbers {} moves) ∧
      Booked (run {} moves) := by
  have hstart : Stage.Numbered ({} : ModuleSharing).stage := Stage.numbered_empty
  refine ⟨?_, ?_, ?_⟩
  · rw [(numbers_eq hstart moves).1]
    exact List.pairwise_lt_range'
  · intro e i hi
    have htag := World.mem_tagsOn_of_instance hi
    rcases id_mem_numbers hstart moves htag with hold | hmade
    · simp [World.tagsOn, World.instancesOn, World.being?, World.beings] at hold
    · exact hmade
  · exact (settled_start.run moves).booked (numbered_run hstart moves)

end ModuleSharing

end HotReload
