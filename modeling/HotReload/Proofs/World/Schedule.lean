import HotReload.Proofs.World.Hiding

/-! # The schedule of hooks

    Whatever is done to a stage, and however its hooks end, an instance gets `ready` once
    and then `process` in every tick, the instances on an entity run in the order in which
    they are listed, and a tick moves nobody.  A hook that fails is reported in one line.

    The last has an exception.  That a type has no hook is found out from the fault of the
    call, which is the lack of a function.  A hook that itself calls a function that nobody
    has ends in a fault of the same kind, as no call stands between the two, and then
    nothing is reported. -/

namespace HotReload

open Body (Value Fault)

/-! ## Section 1 - single calls -/

/-- What a call does to the instance and to the log. -/
structure HookCall.Told (c : HookCall) : Prop where
  /-- The call changes what the fields hold, and nothing else of the instance. -/
  kept : c.outcome.value.id = c.target.id ∧ c.outcome.value.type = c.target.type ∧
    c.outcome.value.ready = c.target.ready
  /-- A hook that a type does not have is passed over in silence. -/
  missing : c.Missing → c.outcome = ⟨c.target, [], []⟩
  ok : ∀ v, c.result = .ok v → c.outcome.log = []
  /-- A fault is reported in one line exactly if it is not the lack of a function in the hook itself. -/
  fault : ∀ fault, c.result = .error fault →
    (c.outcome.log = [c.complaint fault] ↔ fault.isMissingFunction = false) ∧ c.outcome.log.length ≤ 1

theorem HookCall.told (c : HookCall) : c.Told where
  kept := ⟨c.outcome_id, c.outcome_type, c.outcome_ready⟩
  missing := outcome_of_missing
  ok := fun _ => log_of_ok
  fault := by
    intro fault hfault
    rw [log_of_fault hfault]
    cases fault.isMissingFunction <;> simp

/-! ## Section 2 - single ticks -/

/-- What a tick does to who is there, and how its calls account for it. -/
structure Stage.Ticks (s : Stage) (modules : ModuleSet) (dt : Float32) : Prop where
  /-- Everybody stays, in the same order. -/
  entities : (s.tick modules dt).value.world.beings.map Being.entity = s.world.beings.map Being.entity
  /-- Every entity carries the same instances in the same order. -/
  tags : ∀ e, (s.tick modules dt).value.world.tagsOn e = s.world.tagsOn e
  /-- The instances run one after the other, each through the hooks that are due, with no call in between. -/
  hooks : (s.calls modules dt).map (fun c => (c.ref, c.hook)) =
    s.world.beings.flatMap fun b => b.instances.flatMap fun i =>
      (Hook.due i.ready).map fun hook => (⟨b.entity, i.id⟩, hook)
  /-- On an entity they run in the order of its list. -/
  order : ∀ e, (s.calls modules dt).filter (fun c => c.entity = e) =
    (s.world.instancesOn e).flatMap fun i =>
      i.calls (s.sync modules).engine e ((s.world.nameOf e).getD "") dt
  /-- An instance is left as the last of its calls leaves it. -/
  fields : ∀ e, ((s.tick modules dt).value.world.instancesOn e).map some =
    (s.world.instancesOn e).map fun i =>
      (i.calls (s.sync modules).engine e ((s.world.nameOf e).getD "") dt).getLast?.map
        fun c => c.outcome.value
  /-- What is logged and printed comes from the calls, in their order. -/
  account : HookCall.Account (s.calls modules dt) (s.tick modules dt)

theorem Stage.Numbered.ticks {s : Stage} (h : s.Numbered) (modules : ModuleSet) (dt : Float32) :
    s.Ticks modules dt where
  entities := by
    rw [world_tick, World.beings_mapBeings, List.map_map]
    exact List.map_congr_left fun b _ => b.tick_entity _ dt
  tags := fun e => by
    rw [world_tick, World.tagsOn_mapBeings (fun b => b.tick_entity _ dt) fun b => b.tick_tags _ dt]
  hooks := by
    simp only [calls, World.calls, Being.calls, List.map_flatMap, Instance.hooks_calls]
  order := World.calls_on h.sound _ dt
  fields := fun e => by
    simp only [instancesOn_tick, Instance.tick_last, List.map_map]
    rfl
  account := s.account modules dt

/-! ## Section 3 - runs -/

namespace Stage

/-- A stage on which hooks are called as they should be. -/
structure OnSchedule (s : Stage) : Prop where
  ticks : ∀ modules dt, s.Ticks modules dt
  told : ∀ c : HookCall, c.Told
  /-- From the moment it is made, an instance gets what is due to it: `ready` and `process` in its first tick,
      `process` in every later one, and nothing once it is destroyed or its entity is despawned. -/
  due : ∀ modules e type r, (s.addBehaviour modules e type).result = .ok r →
    ∀ ops, (s.addBehaviour modules e type).host.diaryOf r.id ops = Stage.due r false ops
  /-- The same goes on for every instance that is there. -/
  goesOn : ∀ e, ∀ i ∈ s.world.instancesOn e, ∀ ops,
    s.diaryOf i.id ops = Stage.due ⟨e, i.id⟩ i.ready ops
  /-- Whatever stands in the place of one instance, with whatever hooks, the others have the same calls. -/
  others : ∀ n < s.nextInstance, ∀ f ops,
    ((s.refit n f).diary ops).map (fun calls => calls.filter fun c => c.target.id ≠ n) =
      (s.diary ops).map fun calls => calls.filter fun c => c.target.id ≠ n

/-- Hooks are on schedule at any time of any run, and a failing hook is reported exactly if what it fails at is not
    the lack of a function. -/
theorem hooks_on_schedule (ops : List Op) : OnSchedule (run {} ops) := by
  have hs : Numbered (run {} ops) := numbered_empty.run ops
  exact
    { ticks := hs.ticks
      told := HookCall.told
      due := fun modules e type r hr =>
        diaryOf_of_carries (hs.act (.add modules e type)) (carries_of_added hs hr)
      goesOn := fun e i hi => diaryOf_of_carries hs (r := ⟨e, i.id⟩) ⟨i, hi, rfl, rfl⟩
      others := fun n hn => diary_refit hs hn }

/-- A type whose `process` calls a function that nobody has. -/
def strayType : BehaviourType :=
  ⟨"A", some "Behaviour", 1, [], [⟨"process", ["entity", "dt"], [.expr (.call ⟨1, 20⟩ "nope" [])]⟩]⟩

/-- Not every failing hook is reported: nobody hears of one that calls a function that nobody has. -/
theorem stray_hook_goes_unreported : ¬ ∀ (ops : List Op) (modules : ModuleSet) (dt : Float32),
    ∀ c ∈ (run {} ops).calls modules dt, ¬ c.Missing →
      ∀ fault, c.result = .error fault → c.outcome.log = [c.complaint fault] := by
  intro h
  have hlast : ((run {} [.spawnNamed "E", .add [] ⟨0, 1⟩ strayType]).calls [] 0).getLast?.any (fun c =>
      (c.target.type.program.function? c.hook.name c.args.length).isSome && !c.result.isOk &&
        c.outcome.log.isEmpty) = true := by
    decide +kernel
  obtain ⟨c, hc, htest⟩ := (Option.any_eq_true _ _).1 hlast
  simp only [Bool.and_eq_true, Bool.not_eq_true'] at htest
  obtain ⟨⟨hhook, hfails⟩, hsilent⟩ := htest
  obtain ⟨fault, hfault⟩ : ∃ fault, c.result = .error fault := by
    cases hr : c.result with
    | ok v => simp [hr, Except.isOk, Except.toBool] at hfails
    | error fault => exact ⟨fault, rfl⟩
  have hreported := h _ [] 0 c (List.mem_of_getLast? hc)
    (fun hmissing => by rw [show _ = none from hmissing] at hhook; cases hhook) fault hfault
  rw [hreported] at hsilent
  cases hsilent

end Stage

end HotReload
