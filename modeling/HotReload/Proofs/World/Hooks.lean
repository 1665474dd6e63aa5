import HotReload.Proofs.World.Numbers
import HotReload.Proofs.Lists

/-! # Hooks and when they are called

    In a tick an instance has its hooks called: `ready` if the tick is its first, and then
    `process`.  This module writes down the calls of a tick, each with the instance as it
    is when the call begins, and shows that they account for the tick: what the tick logs
    and prints is what its calls log and print, in their order, and what becomes of an
    instance is what the last of its calls makes of it.

    From the calls of single ticks come those of a run.  What is *due* to an instance is
    told by the operations alone, without a look at any program, and it is what the instance
    gets. -/

namespace HotReload

open Body (Value Fault)

/-! ## Section 1 - calls -/

/-- The hooks of a behaviour. -/
inductive Hook where
  | ready
  | process
  deriving DecidableEq

/-- The function that a type has to have for a hook. -/
def Hook.name : Hook → String
  | .ready => "ready"
  | .process => "process"

/-- What a hook is told: what the entity is called, and how long the tick is. -/
def Hook.args (title : String) (dt : Float32) : Hook → List Value
  | .ready => [.string title]
  | .process => [.string title, .float dt.toFloat]

/-- The hooks that an instance has called in a tick. -/
def Hook.due (ready : Bool) : List Hook := if ready then [.process] else [.ready, .process]

/-- One call of a hook. -/
structure HookCall where
  engine : Engine
  entity : Entity
  /-- The instance, as it is when the call begins. -/
  target : Instance
  hook : Hook
  args : List Value

namespace HookCall

/-- The instance that is called. -/
def ref (c : HookCall) : InstanceRef := ⟨c.entity, c.target.id⟩

/-- What the call does: the instance after it, and the lines that it logs and prints. -/
def outcome (c : HookCall) : Ticked Instance := c.target.callHook c.engine c.hook.name c.args

/-- The type has no function for the hook. -/
def Missing (c : HookCall) : Prop := c.target.type.program.function? c.hook.name c.args.length = none

/-- How the function for the hook ends. -/
def result (c : HookCall) : Except Fault Value :=
  (c.target.type.program.callHook c.engine c.hook.name c.args c.target.self).1.result

/-- The line that tells of a fault. -/
def complaint (c : HookCall) (fault : Fault) : LogLine :=
  .error s!"{c.target.type.name}::{c.hook.name} failed: {fault.message}"

@[simp] theorem outcome_id (c : HookCall) : c.outcome.value.id = c.target.id := rfl

@[simp] theorem outcome_type (c : HookCall) : c.outcome.value.type = c.target.type := rfl

@[simp] theorem outcome_ready (c : HookCall) : c.outcome.value.ready = c.target.ready := rfl

/-- A hook that a type does not have is passed over in silence. -/
theorem outcome_of_missing {c : HookCall} (h : c.Missing) : c.outcome = ⟨c.target, [], []⟩ := by
  unfold outcome Instance.callHook Body.Program.callHook
  rw [show c.target.type.program.function? c.hook.name c.args.length = none from h]
  rfl

theorem log_of_ok {c : HookCall} {v : Value} (h : c.result = .ok v) : c.outcome.log = [] := by
  unfold result at h
  simp [outcome, Instance.callHook, h]

/-- A fault is logged once, unless it is the lack of a function and no call stands between it and the hook. -/
theorem log_of_fault {c : HookCall} {fault : Fault} (h : c.result = .error fault) :
    c.outcome.log = if fault.isMissingFunction then [] else [c.complaint fault] := by
  unfold result at h
  simp [outcome, Instance.callHook, h, complaint]

end HookCall

/-! ## Section 2 - the calls of a tick -/

/-- The call of a hook on an instance. -/
def Instance.call (i : Instance) (engine : Engine) (e : Entity) (title : String) (dt : Float32) (hook : Hook) :
    HookCall :=
  ⟨engine, e, i, hook, hook.args title dt⟩

/-- The calls on an instance in one tick.  The second begins with what the first has left. -/
def Instance.calls (i : Instance) (engine : Engine) (e : Entity) (title : String) (dt : Float32) :
    List HookCall :=
  if i.ready then [i.call engine e title dt .process]
  else
    let first := { i with ready := true }.call engine e title dt .ready
    [first, first.outcome.value.call engine e title dt .process]

/-- The calls on the instances of one entity. -/
def Being.calls (b : Being) (engine : Engine) (dt : Float32) : List HookCall :=
  b.instances.flatMap fun i => i.calls engine b.entity (b.name.getD "") dt

/-- The calls on everything in a world. -/
def World.calls (w : World) (engine : Engine) (dt : Float32) : List HookCall :=
  w.beings.flatMap fun b => b.calls engine dt

/-- The calls of a tick of a stage. -/
def Stage.calls (s : Stage) (modules : ModuleSet) (dt : Float32) : List HookCall :=
  s.world.calls (s.sync modules).engine dt

/-! ## Section 3 - what a tick comes to -/

namespace Ticked
variable {α β : Type}

@[simp] theorem andThen_log (t : Ticked α) (f : α → Ticked β) :
    (t.andThen f).log = t.log ++ (f t.value).log :=
  rfl

@[simp] theorem andThen_printed (t : Ticked α) (f : α → Ticked β) :
    (t.andThen f).printed = t.printed ++ (f t.value).printed :=
  rfl

/-- What has not run yet adds nothing. -/
theorem andThen_silent (a : α) (f : α → Ticked β) : (⟨a, [], []⟩ : Ticked α).andThen f = f a := rfl

@[simp] theorem forAll_log (f : α → Ticked α) (l : List α) :
    (forAll f l).log = l.flatMap fun a => (f a).log := by
  induction l with
  | nil => rfl
  | cons a rest ih => simp [forAll, ih]

@[simp] theorem forAll_printed (f : α → Ticked α) (l : List α) :
    (forAll f l).printed = l.flatMap fun a => (f a).printed := by
  induction l with
  | nil => rfl
  | cons a rest ih => simp [forAll, ih]

end Ticked

/-- Some calls account for something that ran if it logs and prints what they do. -/
structure HookCall.Account {α : Type} (calls : List HookCall) (t : Ticked α) : Prop where
  log : t.log = calls.flatMap fun c => c.outcome.log
  printed : t.printed = calls.flatMap fun c => c.outcome.printed

namespace HookCall.Account
variable {α β : Type} {calls : List HookCall} {t : Ticked α}

/-- What runs afterwards is silent. -/
theorem andThen (h : Account calls t) {f : α → Ticked β} (hlog : (f t.value).log = [])
    (hprinted : (f t.value).printed = []) : Account calls (t.andThen f) where
  log := by rw [Ticked.andThen_log, hlog, List.append_nil, h.log]
  printed := by rw [Ticked.andThen_printed, hprinted, List.append_nil, h.printed]

theorem forAll {f : α → Ticked α} {callsOf : α → List HookCall} (h : ∀ a, Account (callsOf a) (f a))
    (l : List α) : Account (l.flatMap callsOf) (Ticked.forAll f l) where
  log := by simp only [Ticked.forAll_log, List.flatMap_assoc, (h _).log]
  printed := by simp only [Ticked.forAll_printed, List.flatMap_assoc, (h _).printed]

end HookCall.Account

namespace Instance
variable (i : Instance) (engine : Engine) (e : Entity) (title : String) (dt : Float32)

@[simp] theorem call_target (hook : Hook) : (i.call engine e title dt hook).target = i := rfl

@[simp] theorem call_hook (hook : Hook) : (i.call engine e title dt hook).hook = hook := rfl

@[simp] theorem call_ref (hook : Hook) : (i.call engine e title dt hook).ref = ⟨e, i.id⟩ := rfl

/-- A tick is its calls, one after the other. -/
theorem tick_eq : i.tick engine title dt =
    if i.ready then (i.call engine e title dt .process).outcome
    else ({ i with ready := true }.call engine e title dt .ready).outcome.andThen fun i =>
      (i.call engine e title dt .process).outcome := by
  unfold tick
  split
  · rw [Ticked.andThen_silent]
    rfl
  · rfl

theorem account : HookCall.Account (i.calls engine e title dt) (i.tick engine title dt) := by
  rw [i.tick_eq engine e title dt, calls]
  split <;> constructor <;> simp

/-- What becomes of an instance is what its last call makes of it. -/
theorem tick_last : (i.calls engine e title dt).getLast?.map (fun c => c.outcome.value) =
    some (i.tick engine title dt).value := by
  rw [i.tick_eq engine e title dt, calls]
  split <;> simp

/-- All calls on an instance are on it and on its entity. -/
theorem ref_of_mem_calls {c : HookCall} (hc : c ∈ i.calls engine e title dt) : c.ref = ⟨e, i.id⟩ := by
  unfold calls at hc
  split at hc
  · rw [List.mem_singleton.1 hc, call_ref]
  · rcases List.mem_pair.1 hc with rfl | rfl
    · rw [call_ref]
    · rw [call_ref, HookCall.outcome_id, call_target]

theorem hooks_calls : (i.calls engine e title dt).map (fun c => (c.ref, c.hook)) =
    (Hook.due i.ready).map fun hook => (⟨e, i.id⟩, hook) := by
  unfold calls Hook.due
  split <;> simp

end Instance

theorem Being.account (b : Being) (engine : Engine) (dt : Float32) :
    HookCall.Account (b.calls engine dt) (b.tick engine dt) := by
  unfold calls tick
  split
  · next hb => exact ⟨by simp [instances, hb], by simp [instances, hb]⟩
  · next is hb =>
    rw [show b.instances = is by simp [instances, hb]]
    exact HookCall.Account.andThen (.forAll (fun i => i.account engine b.entity (b.name.getD "") dt) is) rfl rfl

theorem World.account (w : World) (engine : Engine) (dt : Float32) :
    HookCall.Account (w.calls engine dt) (w.tick engine dt) := by
  have htable : ∀ t : Table, HookCall.Account (t.rows.flatMap fun b => b.calls engine dt)
      ((Ticked.forAll (fun b => b.tick engine dt) t.rows).andThen fun rows =>
        ⟨{ t with rows }, [], []⟩) :=
    fun t => HookCall.Account.andThen (.forAll (fun b => b.account engine dt) t.rows) rfl rfl
  have hcalls : w.calls engine dt = w.tables.flatMap fun t => t.rows.flatMap fun b => b.calls engine dt := by
    unfold calls beings
    rw [List.flatMap_assoc]
  rw [hcalls]
  exact HookCall.Account.andThen (.forAll htable w.tables) rfl rfl

theorem Stage.account (s : Stage) (modules : ModuleSet) (dt : Float32) :
    HookCall.Account (s.calls modules dt) (s.tick modules dt) := by
  have h := s.world.account (s.sync modules).engine dt
  unfold calls tick
  rw [← s.world_sync modules] at h ⊢
  exact h.andThen rfl rfl

/-! ## Section 4 - the calls on one entity and on one instance -/

theorem Being.entity_of_mem_calls {b : Being} {engine : Engine} {dt : Float32} {c : HookCall}
    (hc : c ∈ b.calls engine dt) : c.entity = b.entity := by
  obtain ⟨i, -, hi⟩ := List.mem_flatMap.1 hc
  exact congrArg InstanceRef.entity (i.ref_of_mem_calls engine b.entity _ dt hi)

namespace World
variable {w : World}

/-- The calls on an entity are those on its instances, in the order of its list. -/
theorem calls_on (h : w.Sound) (engine : Engine) (dt : Float32) (e : Entity) :
    (w.calls engine dt).filter (fun c => c.entity = e) =
      (w.instancesOn e).flatMap fun i => i.calls engine e ((w.nameOf e).getD "") dt := by
  unfold calls
  rw [List.filter_flatMap]
  have hothers : ∀ b : Being, b.entity ≠ e → (b.calls engine dt).filter (fun c => c.entity = e) = [] :=
    fun b hb => List.filter_eq_nil_iff.2 fun c hc hce =>
      hb ((Being.entity_of_mem_calls hc).symm.trans (of_decide_eq_true hce))
  unfold instancesOn nameOf
  cases hbe : w.being? e with
  | none =>
    refine List.flatMap_eq_nil_iff.2 fun b hb => hothers b fun he => ?_
    simpa [hbe] using h.being?_iff.2 ⟨hb, he⟩
  | some b =>
    obtain ⟨hb, rfl⟩ := h.being?_iff.1 hbe
    rw [flatMap_eq_of_unique h.entities hb fun b' _ => hothers b', List.filter_eq_self.2]
    · rfl
    · exact fun c hc => decide_eq_true (Being.entity_of_mem_calls hc)

/-- Who is called is there. -/
theorem instance_of_mem_calls (h : w.Sound) {engine : Engine} {dt : Float32} {c : HookCall}
    (hc : c ∈ w.calls engine dt) : ∃ i ∈ w.instancesOn c.entity, i.id = c.target.id := by
  have hon : c ∈ (w.calls engine dt).filter (fun c' => c'.entity = c.entity) :=
    List.mem_filter.2 ⟨hc, decide_eq_true rfl⟩
  rw [calls_on h] at hon
  obtain ⟨i, hi, hci⟩ := List.mem_flatMap.1 hon
  exact ⟨i, hi, (congrArg InstanceRef.id (i.ref_of_mem_calls engine c.entity _ dt hci)).symm⟩

end World

namespace Stage
variable {s : Stage}

/-- The calls on one instance in one tick, found among all calls by its number. -/
theorem calls_of (h : s.Numbered) (modules : ModuleSet) (dt : Float32) {e : Entity} {i : Instance}
    (hi : i ∈ s.world.instancesOn e) :
    (s.calls modules dt).filter (fun c => c.target.id = i.id) =
      i.calls (s.sync modules).engine e ((s.world.nameOf e).getD "") dt := by
  have hidOf : ∀ {j : Instance} {c : HookCall}, c ∈ j.calls (s.sync modules).engine e
      ((s.world.nameOf e).getD "") dt → c.target.id = j.id :=
    fun hc => congrArg InstanceRef.id (Instance.ref_of_mem_calls _ _ _ _ _ hc)
  -- A number is on one entity only.
  have hfirst : (s.calls modules dt).filter (fun c => c.target.id = i.id) =
      ((s.calls modules dt).filter (fun c => c.entity = e)).filter (fun c => c.target.id = i.id) := by
    rw [List.filter_filter]
    refine List.filter_congr fun c hc => ?_
    by_cases hid : c.target.id = i.id
    · obtain ⟨j, hj, hjid⟩ := World.instance_of_mem_calls h.sound hc
      have he : c.entity = e := h.apart _ _ _ (World.mem_tagsOn_of_instance hj) _
        (World.mem_tagsOn_of_instance hi) (hjid.trans hid)
      simp [hid, he]
    · simp [hid]
  have hnd : ((s.world.instancesOn e).map Instance.id).Nodup := by
    have := (h.rising e).imp Nat.ne_of_lt
    rwa [World.tagsOn, List.map_map] at this
  rw [hfirst, calls, World.calls_on h.sound, List.filter_flatMap,
    flatMap_eq_of_unique hnd hi, List.filter_eq_self.2]
  · exact fun c hc => decide_eq_true (hidOf hc)
  · exact fun j _ hne => List.filter_eq_nil_iff.2 fun c hc hid =>
      hne ((hidOf hc).symm.trans (of_decide_eq_true hid))

/-- Nobody is called under a number that has gone. -/
theorem calls_of_spent (h : s.Numbered) (modules : ModuleSet) (dt : Float32) {n : Nat} (hspent : s.Spent n) :
    (s.calls modules dt).filter (fun c => c.target.id = n) = [] := by
  refine List.filter_eq_nil_iff.2 fun c hc hid => ?_
  obtain ⟨i, hi, hii⟩ := World.instance_of_mem_calls h.sound hc
  exact hspent.nowhere _ _ (World.mem_tagsOn_of_instance hi) (hii.trans (of_decide_eq_true hid))

/-! ## Section 5 - the calls of a run -/

/-- The calls of each operation. -/
def callsOf (s : Stage) : Op → List HookCall
  | .tick modules dt => s.calls modules dt
  | _ => []

/-- The calls of a run, operation by operation. -/
def diary : Stage → List Op → List (List HookCall)
  | _, [] => []
  | s, d :: more => s.callsOf d :: (s.act d).diary more

/-- The part of a diary that concerns one number. -/
def diaryOf (s : Stage) (n : Nat) (ops : List Op) : List (List (InstanceRef × Hook)) :=
  (s.diary ops).map fun calls =>
    (calls.filter fun c => c.target.id = n).map fun c => (c.ref, c.hook)

/-- What is due to an instance in the course of some operations: `process` in every tick, after `ready` in the first one,
    until the instance ends.  The programs of the instances have no say in it. -/
def due (r : InstanceRef) : Bool → List Op → List (List (InstanceRef × Hook))
  | _, [] => []
  | ready, d :: more =>
    if d.ends r then [] :: more.map fun _ => []
    else (if d.isTick then (Hook.due ready).map fun hook => (r, hook) else []) :: due r (ready || d.isTick) more

theorem diaryOf_cons (s : Stage) (n : Nat) (d : Op) (more : List Op) :
    s.diaryOf n (d :: more) =
      (((s.callsOf d).filter fun c => c.target.id = n).map fun c => (c.ref, c.hook)) :: (s.act d).diaryOf n more :=
  rfl

/-- Nothing is called under a number that has gone, now or later. -/
theorem diaryOf_of_spent (hs : s.Numbered) {n : Nat} (h : s.Spent n) (ops : List Op) :
    s.diaryOf n ops = ops.map fun _ => [] := by
  induction ops generalizing s with
  | nil => rfl
  | cons d more ih =>
    have hnow : (s.callsOf d).filter (fun c => c.target.id = n) = [] := by
      cases d with
      | tick modules dt => exact calls_of_spent hs modules dt h
      | _ => rfl
    rw [diaryOf_cons, hnow, ih (hs.act d) (h.act hs d)]
    rfl

/-- An instance gets what is due to it. -/
theorem diaryOf_of_carries (hs : s.Numbered) {r : InstanceRef} {ready : Bool} (h : s.Carries r ready)
    (ops : List Op) : s.diaryOf r.id ops = due r ready ops := by
  induction ops generalizing s ready with
  | nil => rfl
  | cons d more ih =>
    rw [diaryOf_cons]
    unfold due
    cases hd : d.ends r with
    | true =>
      have hnow : s.callsOf d = [] := by
        cases d with
        | tick modules dt => cases hd
        | _ => rfl
      rw [if_pos rfl, hnow, diaryOf_of_spent (hs.act d) (h.spent hs hd)]
      rfl
    | false =>
      rw [if_neg Bool.false_ne_true, ih (hs.act d) (h.act hs hd)]
      congr 1
      cases d with
      | tick modules dt =>
        obtain ⟨i, hi, hid, hready⟩ := h
        show ((s.calls modules dt).filter fun c => c.target.id = r.id).map _ =
          (Hook.due ready).map fun hook => (r, hook)
        rw [← hid, ← hready, calls_of hs modules dt hi, Instance.hooks_calls, hid]
      | _ => rfl

end Stage

end HotReload
