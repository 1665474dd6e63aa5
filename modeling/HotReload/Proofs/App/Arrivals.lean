import HotReload.Proofs.App.Respawn
import Mathlib.Data.Nat.Find

/-! # Changes that are reported during a step

    Reports of changes come from another thread, and so they fall anywhere between the
    updates of a step.  Each of them raises a signal and does nothing else.  A step
    updates a script once for every group that holds it: these are the *turns* of the
    script.

    A turn reloads the script if a report has come in since the turn before it.  So a
    report does not wait for the next step if the script has another turn left in this
    one, and a script that several groups hold can be reloaded by several of its turns
    in one step. -/

namespace HotReload

variable {η : Type}

/-! ## Section 1 - steps with reports -/

namespace Registry

/-- A change of a source is reported to its script. -/
def alert (r : Registry) (key : Path) : Registry := r.modify key fun e => { e with script := e.script.requestReload }

/-- Changes are reported one after the other. -/
def alertEach (r : Registry) (keys : List Path) : Registry := keys.foldl alert r

/-- Lets scripts answer their changes one after the other, while more of them are reported: `arrivals n`
    right before the turn with the number `n`, or at the end if there is none.  Says of every turn
    whether there was anything to answer. -/
def updateAmid [Host η] (w : Workspace η) (r : Registry) (arrivals : Nat → List Path) :
    List Path → Workspace η × Registry × List (Path × Bool)
  | [] => (w, r.alertEach (arrivals 0), [])
  | key :: keys =>
    let (w, r, ran) := (r.alertEach (arrivals 0)).update w key
    let (w, r, rest) := updateAmid w r (fun n => arrivals (n + 1)) keys
    (w, r, (key, ran) :: rest)

end Registry

namespace App

/-- The turns of a step, in order. -/
def turns (a : App) : List Path := a.groups.flatMap ScriptGroup.keys

/-- The answers that the turns of a step give, while changes are reported. -/
def answers (a : App) (arrivals : Nat → List Path) : List (Path × Bool) :=
  (a.registry.updateAmid a.workspace arrivals a.turns).2.2

/-- A step while changes are reported. -/
def stepAmid (a : App) (arrivals : Nat → List Path) (dt : Float32) : App × StepReport :=
  let (workspace, registry, answers) := a.registry.updateAmid a.workspace arrivals a.turns
  let (workspace, printed) := (workspace.tick dt).takePrinted
  let (registry, events) := registry.drainEvents
  ({ a with workspace, registry }, { recompiled := answers.countP fun answer => answer.2, printed, events })

end App

namespace Registry
variable [Host η]

theorem updateAmid_cons (w : Workspace η) (r : Registry) (arrivals : Nat → List Path) (key : Path)
    (keys : List Path) : r.updateAmid w arrivals (key :: keys) =
      let first := (r.alertEach (arrivals 0)).update w key
      let rest := first.2.1.updateAmid first.1 (fun n => arrivals (n + 1)) keys
      (rest.1, rest.2.1, (key, first.2.2) :: rest.2.2) :=
  rfl

/-- Without any reports it is a poll. -/
theorem updateAmid_quiet (w : Workspace η) (r : Registry) (keys : List Path) :
    (r.updateAmid w (fun _ => []) keys).1 = (r.updateEach w keys).1 ∧
      (r.updateAmid w (fun _ => []) keys).2.1 = (r.updateEach w keys).2.1 ∧
      (r.updateAmid w (fun _ => []) keys).2.2.countP (fun answer => answer.2) =
        (r.updateEach w keys).2.2 := by
  induction keys generalizing w r with
  | nil => exact ⟨rfl, rfl, rfl⟩
  | cons key keys ih =>
    obtain ⟨hworkspace, hregistry, hcount⟩ := ih (r.update w key).1 (r.update w key).2.1
    have hquiet : r.alertEach [] = r := rfl
    rw [updateAmid_cons, updateEach_cons]
    dsimp only
    rw [hquiet, List.countP_cons, hcount]
    exact ⟨hworkspace, hregistry, by split <;> rfl⟩

/-- The scripts that had something to answer add up. -/
theorem count_updateEach_append (w : Workspace η) (r : Registry) (keys keys' : List Path) :
    (r.updateEach w (keys ++ keys')).2.2 = (r.updateEach w keys).2.2 +
      ((r.updateEach w keys).2.1.updateEach (r.updateEach w keys).1 keys').2.2 := by
  induction keys generalizing w r with
  | nil => exact (Nat.zero_add _).symm
  | cons key keys ih =>
    rw [List.cons_append, updateEach_cons, updateEach_cons]
    dsimp only
    rw [ih]
    cases (r.update w key).2.2 with
    | true => exact Nat.add_right_comm _ _ 1
    | false => rfl

end Registry

namespace App

theorem count_pollEach (a : App) (groups : List ScriptGroup) :
    (a.pollEach groups).2 = (a.registry.updateEach a.workspace (groups.flatMap ScriptGroup.keys)).2.2 := by
  induction groups generalizing a with
  | nil => rfl
  | cons g rest ih =>
    rw [List.flatMap_cons, Registry.count_updateEach_append]
    exact congrArg ((a.registry.updateEach a.workspace g.keys).2.2 + ·) (ih _)

/-- So a step is one during which no change is reported. -/
theorem stepAmid_quiet (a : App) (dt : Float32) : a.stepAmid (fun _ => []) dt = a.step dt := by
  obtain ⟨hworkspace, hregistry, hcount⟩ := a.registry.updateAmid_quiet a.workspace a.turns
  obtain ⟨hworkspace', hregistry'⟩ := a.session_pollEach a.groups
  obtain ⟨hgroups, hsettings⟩ := a.groups_pollEach a.groups
  unfold stepAmid step
  dsimp only
  rw [hcount, hworkspace, hregistry, hworkspace', hregistry', hgroups, hsettings, a.count_pollEach]
  rfl

end App

/-! ## Section 2 - what waits for a turn -/

/-- Whether something has come in by the turn with a number, and after the turn before it: it has been there from
    the start, or it has come in between. -/
def Waits (start : Prop) (told turn : Nat → Prop) (n : Nat) : Prop :=
  (start ∧ ∀ m < n, ¬ turn m) ∨ ∃ j ≤ n, told j ∧ ∀ m, j ≤ m → m < n → ¬ turn m

section waits
variable {start : Prop} {told turn : Nat → Prop}

theorem waits_zero : Waits start told turn 0 ↔ start ∨ told 0 := by
  unfold Waits
  simp

/-- After the first turn, or what could have been it, the story begins anew. -/
theorem waits_succ (n : Nat) : Waits start told turn (n + 1) ↔
    Waits ((start ∨ told 0) ∧ ¬ turn 0) (fun j => told (j + 1)) (fun m => turn (m + 1)) n := by
  unfold Waits
  constructor
  · rintro (⟨hstart, hfree⟩ | ⟨j, hj, htold, hfree⟩)
    · exact .inl ⟨⟨.inl hstart, hfree 0 (Nat.succ_pos n)⟩, fun m hm => hfree (m + 1) (Nat.succ_lt_succ hm)⟩
    · cases j with
      | zero =>
        exact .inl ⟨⟨.inr htold, hfree 0 (Nat.le_refl 0) (Nat.succ_pos n)⟩,
          fun m hm => hfree (m + 1) (Nat.zero_le _) (Nat.succ_lt_succ hm)⟩
      | succ j =>
        exact .inr ⟨j, Nat.le_of_succ_le_succ hj, htold,
          fun m hjm hm => hfree (m + 1) (Nat.succ_le_succ hjm) (Nat.succ_lt_succ hm)⟩
  · rintro (⟨⟨hstart, hfirst⟩, hfree⟩ | ⟨j, hj, htold, hfree⟩)
    · have hnone : ∀ m < n + 1, ¬ turn m := by
        intro m hm
        cases m with
        | zero => exact hfirst
        | succ m => exact hfree m (Nat.lt_of_succ_lt_succ hm)
      rcases hstart with hstart | htold
      · exact .inl ⟨hstart, hnone⟩
      · exact .inr ⟨0, Nat.zero_le _, htold, fun m _ hm => hnone m hm⟩
    · refine .inr ⟨j + 1, Nat.succ_le_succ hj, htold, fun m hjm hm => ?_⟩
      cases m with
      | zero => omega
      | succ m => exact hfree m (Nat.le_of_succ_le_succ hjm) (Nat.lt_of_succ_lt_succ hm)

/-- Whatever comes in waits for the next turn, if there is one. -/
theorem waits_of_told (start : Prop) {j n : Nat} (htold : told j) (hj : j ≤ n) (hn : turn n) :
    ∃ m, j ≤ m ∧ m ≤ n ∧ turn m ∧ Waits start told turn m := by
  classical
  have hsome : ∃ m, j ≤ m ∧ turn m := ⟨n, hj, hn⟩
  obtain ⟨hle, hturn⟩ := Nat.find_spec hsome
  refine ⟨Nat.find hsome, hle, Nat.find_min' hsome ⟨hj, hn⟩, hturn, .inr ⟨j, hle, htold, ?_⟩⟩
  exact fun m hjm hm hturn' => Nat.find_min hsome hm ⟨hjm, hturn'⟩

theorem waits_of_start (told : Nat → Prop) {n : Nat} (hstart : start) (hn : turn n) :
    ∃ m ≤ n, turn m ∧ Waits start told turn m := by
  classical
  have hsome : ∃ m, turn m := ⟨n, hn⟩
  refine ⟨Nat.find hsome, Nat.find_min' hsome hn, Nat.find_spec hsome, .inl ⟨hstart, ?_⟩⟩
  exact fun m hm => Nat.find_min hsome hm

/-- Two turns find something exactly if something comes in after one and by another, and something was
    there by the first of the two already. -/
theorem waits_twice_iff :
    (∃ m n, m < n ∧ (turn m ∧ Waits start told turn m) ∧ turn n ∧ Waits start told turn n) ↔
      ∃ m n, m < n ∧ turn m ∧ turn n ∧ (start ∨ ∃ i ≤ m, told i) ∧ ∃ j, m < j ∧ j ≤ n ∧ told j := by
  constructor
  · rintro ⟨m, n, hmn, ⟨hm, hfirst⟩, hn, hsecond⟩
    refine ⟨m, n, hmn, hm, hn, ?_, ?_⟩
    · rcases hfirst with ⟨hstart, -⟩ | ⟨i, hi, htold, -⟩
      · exact .inl hstart
      · exact .inr ⟨i, hi, htold⟩
    · rcases hsecond with ⟨-, hfree⟩ | ⟨j, hj, htold, hfree⟩
      · exact absurd hm (hfree m hmn)
      · refine ⟨j, ?_, hj, htold⟩
        by_contra hle
        exact hfree m (by omega) hmn hm
  · rintro ⟨m, n, hmn, hm, hn, hfirst, j, hmj, hjn, htold⟩
    obtain ⟨n', hjn', -, hn', hwaits'⟩ := waits_of_told start htold hjn hn
    have hearlier : ∃ m' ≤ m, turn m' ∧ Waits start told turn m' := by
      rcases hfirst with hstart | ⟨i, hi, htold⟩
      · exact waits_of_start told hstart hm
      · obtain ⟨m', -, hm', hturn, hwaits⟩ := waits_of_told start htold hi hm
        exact ⟨m', hm', hturn, hwaits⟩
    obtain ⟨m', hm', hturn, hwaits⟩ := hearlier
    exact ⟨m', n', by omega, ⟨hturn, hwaits⟩, hn', hwaits'⟩

end waits

/-! ## Section 3 - turns -/

namespace Registry

/-- Whether a change waits for an answer, as far as the script is in service. -/
def pending? (r : Registry) (k : Path) : Option Bool :=
  (r.script? k).bind fun s => if s.discarded then none else some s.signal.raised

/-- A script in service has a change to answer. -/
def Due (r : Registry) (k : Path) : Prop := r.pending? k = some true

/-- A change is reported to a script. -/
def Told (k : Path) (arrivals : Nat → List Path) (n : Nat) : Prop := ∃ key ∈ arrivals n, k.Same key

/-- A turn is one of a script. -/
def IsTurn (k : Path) (keys : List Path) (n : Nat) : Prop := ∃ key, keys[n]? = some key ∧ k.Same key

/-- A turn of a script has found something to answer. -/
def Answered (k : Path) (answers : List (Path × Bool)) (n : Nat) : Prop :=
  ∃ key, answers[n]? = some (key, true) ∧ k.Same key

section pending
variable {r r' : Registry} {k : Path}

theorem serves_iff_pending : r.Serves k ↔ (r.pending? k).isSome := by
  unfold Serves pending?
  cases r.script? k with
  | none => simp
  | some s => cases hd : s.discarded <;> simp [hd]

theorem Due.serves (h : r.Due k) : r.Serves k := by
  rw [serves_iff_pending, h]
  rfl

/-- A change of all scripts that takes none out of service and brings none back. -/
theorem pending?_map {f : Script → Script} (h : r'.script? k = (r.script? k).map f) {g : Bool → Bool}
    (hservice : ∀ s, (f s).discarded = s.discarded)
    (hsignal : ∀ s, s.discarded = false → (f s).signal.raised = g s.signal.raised) :
    r'.pending? k = (r.pending? k).map g := by
  unfold pending?
  rw [h]
  cases r.script? k with
  | none => rfl
  | some s =>
    cases hd : s.discarded with
    | true => simp [hservice, hd]
    | false => simp [hservice, hsignal, hd]

theorem pending?_alert (r : Registry) (key k : Path) :
    (r.alert key).pending? k = (r.pending? k).map fun p => p || decide (k.Same key) := by
  have hscript : (r.alert key).script? k =
      (r.script? k).map fun s => if k.Same key then s.requestReload else s := by
    unfold script? alert
    rw [find?_modify (by intro; rfl)]
    cases r.find? k with
    | none => rfl
    | some e => by_cases hsame : k.Same key <;> simp [hsame]
  refine pending?_map hscript (fun s => ?_) (fun s _ => ?_)
  · split <;> rfl
  · by_cases hsame : k.Same key <;> simp [hsame, Script.requestReload]

theorem pending?_alertEach (r : Registry) (keys : List Path) (k : Path) :
    (r.alertEach keys).pending? k = (r.pending? k).map fun p => p || keys.any fun key => decide (k.Same key) := by
  induction keys generalizing r with
  | nil => simp [alertEach]
  | cons key keys ih =>
    show ((r.alert key).alertEach keys).pending? k = _
    rw [ih, pending?_alert, Option.map_map]
    congr 1
    funext p
    simp [Bool.or_assoc]

theorem pending?_drainEvents (r : Registry) (k : Path) : r.drainEvents.1.pending? k = r.pending? k := by
  have hscript : r.drainEvents.1.script? k = (r.script? k).map fun s => s.drainEvents.1 := by
    unfold script?
    rw [find?_drainEvents]
    cases r.find? k <;> rfl
  rw [pending?_map (g := id) hscript (fun _ => rfl) (fun _ _ => rfl), Option.map_id_fun, id]

/-- What is reported to a script in service is due. -/
theorem alertEach_fields (r : Registry) (arrivals : Nat → List Path) (k : Path) :
    ((r.alertEach (arrivals 0)).Serves k ↔ r.Serves k) ∧
      ((r.alertEach (arrivals 0)).Due k ↔ r.Serves k ∧ (r.Due k ∨ Told k arrivals 0)) := by
  rw [serves_iff_pending, serves_iff_pending]
  unfold Due Told
  rw [pending?_alertEach]
  cases r.pending? k <;> simp

variable [Host η]

/-- A turn of a script in service leaves nothing due, and any other turn is no concern of it. -/
theorem pending?_update (w : Workspace η) (r : Registry) (key k : Path) :
    (r.update w key).2.1.pending? k = (r.pending? k).map fun p => p && !decide (k.Same key) := by
  refine pending?_map (script?_visit w r key Script.update k) (fun s => ?_) (fun s hservice => ?_)
  · split
    · exact (Script.update_fields w s).2.2.1
    · rfl
  · by_cases hsame : k.Same key
    · obtain ⟨-, -, hd, hidle⟩ := Script.update_fields w s
      rw [hd, hservice] at hidle
      simpa [hsame] using hidle
    · simp [hsame]

theorem update_fields (w : Workspace η) (r : Registry) (key k : Path) :
    ((r.update w key).2.1.Serves k ↔ r.Serves k) ∧
      ((r.update w key).2.1.Due k ↔ r.Due k ∧ ¬ k.Same key) := by
  rw [serves_iff_pending, serves_iff_pending]
  unfold Due
  rw [pending?_update]
  cases r.pending? k <;> simp

/-- A turn reloads its script if something is due. -/
theorem update_ran (w : Workspace η) (r : Registry) {key : Path} (hsame : k.Same key) :
    (r.update w key).2.2 = true ↔ r.Due k := by
  have hscript : r.script? key = r.script? k := by
    unfold script?
    rw [find?_congr r hsame]
  unfold Due pending?
  rw [← hscript]
  show ((r.visit w key Script.update).2.2.getD false) = true ↔ _
  rcases visit_cases w r key Script.update with ⟨hnone, heq⟩ | ⟨s, hs, heq⟩ <;> rw [heq]
  · simp [hnone]
  · rw [hs]
    rcases Script.update_cases w s with ⟨hd, hr, heq⟩ | ⟨hidle, heq⟩ <;> rw [heq]
    · simp [hd, hr]
    · rcases hidle with h | h <;> simp [h]

end pending

section turns
variable [Host η]

/-- A turn answers what waits for it, and after the last turn what has come in since is due. -/
theorem updateAmid_spec (w : Workspace η) (r : Registry) (arrivals : Nat → List Path) (keys : List Path)
    (k : Path) :
    (∀ n, Answered k (r.updateAmid w arrivals keys).2.2 n ↔
      r.Serves k ∧ IsTurn k keys n ∧ Waits (r.Due k) (Told k arrivals) (IsTurn k keys) n) ∧
    ((r.updateAmid w arrivals keys).2.1.Due k ↔
      r.Serves k ∧ Waits (r.Due k) (Told k arrivals) (IsTurn k keys) keys.length) := by
  induction keys generalizing w r arrivals with
  | nil =>
    refine ⟨fun n => by simp [updateAmid, Answered, IsTurn], ?_⟩
    rw [List.length_nil, waits_zero]
    exact (r.alertEach_fields arrivals k).2
  | cons key keys ih =>
    obtain ⟨hserves, hdue⟩ := r.alertEach_fields arrivals k
    obtain ⟨hserves', hdue'⟩ := (r.alertEach (arrivals 0)).update_fields w key k
    have hturn : IsTurn k (key :: keys) 0 ↔ k.Same key := by simp [IsTurn]
    have hturns : (fun m => IsTurn k (key :: keys) (m + 1)) = IsTurn k keys := by
      funext m
      simp [IsTurn]
    -- what waits for a later turn is decided by what the first turn leaves
    have hlater : r.Serves k → ∀ n, (Waits (((r.alertEach (arrivals 0)).update w key).2.1.Due k)
        (Told k fun n => arrivals (n + 1)) (IsTurn k keys) n ↔
          Waits (r.Due k) (Told k arrivals) (IsTurn k (key :: keys)) (n + 1)) := by
      intro hk n
      rw [waits_succ, hturns, hdue', hdue, hturn]
      simp only [hk, true_and]
      rfl
    obtain ⟨hrest, hlast⟩ := ih ((r.alertEach (arrivals 0)).update w key).1
      ((r.alertEach (arrivals 0)).update w key).2.1 fun n => arrivals (n + 1)
    rw [hserves', hserves] at hlast
    rw [updateAmid_cons]
    refine ⟨fun n => ?_, hlast.trans (and_congr_right fun hk => hlater hk _)⟩
    cases n with
    | zero =>
      have hran : k.Same key →
          (((r.alertEach (arrivals 0)).update w key).2.2 = true ↔ (r.alertEach (arrivals 0)).Due k) :=
        update_ran w _
      rw [waits_zero, hturn]
      simp only [Answered, List.getElem?_cons_zero, Option.some.injEq, Prod.mk.injEq, exists_eq_left', and_assoc]
      constructor
      · rintro ⟨hanswer, hsame⟩
        obtain ⟨hk, hwaits⟩ := hdue.1 ((hran hsame).1 hanswer)
        exact ⟨hk, hsame, hwaits⟩
      · rintro ⟨hk, hsame, hwaits⟩
        exact ⟨(hran hsame).2 (hdue.2 ⟨hk, hwaits⟩), hsame⟩
    | succ n =>
      have hnext : IsTurn k keys n ↔ IsTurn k (key :: keys) (n + 1) := by rw [← hturns]
      have hsame := hrest n
      rw [hserves', hserves] at hsame
      refine Iff.trans (by simp [Answered]) (hsame.trans ?_)
      exact and_congr_right fun hk => and_congr hnext (hlater hk n)

end turns

end Registry

/-! ## Section 4 - the main theorem -/

namespace App

open Registry (Told IsTurn Answered)

/-- A turn of a step reloads a script. -/
def Reloads (a : App) (arrivals : Nat → List Path) (k : Path) (n : Nat) : Prop :=
  Answered k (a.answers arrivals) n

theorem reloads_iff (a : App) (arrivals : Nat → List Path) (k : Path) (n : Nat) :
    a.Reloads arrivals k n ↔ a.registry.Serves k ∧ IsTurn k a.turns n ∧
      Waits (a.registry.Due k) (Told k arrivals) (IsTurn k a.turns) n :=
  (a.registry.updateAmid_spec a.workspace arrivals a.turns k).1 n

/-- What a step leaves due. -/
theorem due_stepAmid (a : App) (arrivals : Nat → List Path) (dt : Float32) (k : Path) :
    (a.stepAmid arrivals dt).1.registry.Due k ↔ a.registry.Serves k ∧
      Waits (a.registry.Due k) (Told k arrivals) (IsTurn k a.turns) a.turns.length := by
  have hdrained : (a.stepAmid arrivals dt).1.registry.pending? k =
      (a.registry.updateAmid a.workspace arrivals a.turns).2.1.pending? k :=
    Registry.pending?_drainEvents _ k
  unfold Registry.Due at *
  rw [hdrained]
  exact (a.registry.updateAmid_spec a.workspace arrivals a.turns k).2

/-- In a step a script is reloaded more than once exactly if it is in service and a change is reported
    between two of its turns, where another one was there already by the first of the two; otherwise it
    is reloaded once at most.  A change that is reported during a step is answered by the next turn of
    the script, in this step if it has one left, and else in the next step. -/
theorem reloaded_once_iff (a : App) (arrivals : Nat → List Path) (dt : Float32) (k : Path) :
    ((∀ m n, a.Reloads arrivals k m → a.Reloads arrivals k n → m = n) ↔
      ¬ (a.registry.Serves k ∧ ∃ m n, m < n ∧ IsTurn k a.turns m ∧ IsTurn k a.turns n ∧
        (a.registry.Due k ∨ ∃ i ≤ m, Told k arrivals i) ∧ ∃ j, m < j ∧ j ≤ n ∧ Told k arrivals j)) ∧
    ∀ j ≤ a.turns.length, Told k arrivals j → a.registry.Serves k → (∃ n, IsTurn k a.turns n) →
      (∃ n, j ≤ n ∧ a.Reloads arrivals k n) ∨
        (∀ n, j ≤ n → ¬ IsTurn k a.turns n) ∧
          ∀ later, ∃ n, (a.stepAmid arrivals dt).1.Reloads later k n := by
  refine ⟨?_, ?_⟩
  · rw [← waits_twice_iff]
    simp only [reloads_iff]
    constructor
    · rintro hone ⟨hserves, m, n, hmn, hm, hn⟩
      exact Nat.ne_of_lt hmn (hone m n ⟨hserves, hm⟩ ⟨hserves, hn⟩)
    · rintro hnot m n ⟨hserves, hm⟩ ⟨-, hn⟩
      rcases Nat.lt_trichotomy m n with hlt | heq | hlt
      · exact absurd ⟨hserves, m, n, hlt, hm, hn⟩ hnot
      · exact heq
      · exact absurd ⟨hserves, n, m, hlt, hn, hm⟩ hnot
  · rintro j hj htold hserves ⟨n, hn⟩
    by_cases hleft : ∃ n, j ≤ n ∧ IsTurn k a.turns n
    · obtain ⟨n, hjn, hn⟩ := hleft
      obtain ⟨m, hjm, -, hm, hwaits⟩ := waits_of_told (a.registry.Due k) htold hjn hn
      exact .inl ⟨m, hjm, (a.reloads_iff arrivals k m).2 ⟨hserves, hm, hwaits⟩⟩
    · have hnone : ∀ n, j ≤ n → ¬ IsTurn k a.turns n := fun n hjn hn => hleft ⟨n, hjn, hn⟩
      refine .inr ⟨hnone, fun later => ?_⟩
      -- nothing takes the report away until the step is over, and the next one has the same turns
      have hdue : (a.stepAmid arrivals dt).1.registry.Due k :=
        (a.due_stepAmid arrivals dt k).2 ⟨hserves, .inr ⟨j, hj, htold, fun m hjm _ => hnone m hjm⟩⟩
      have hturn : IsTurn k (a.stepAmid arrivals dt).1.turns n := hn
      obtain ⟨m, -, hm, hwaits⟩ := waits_of_start (Told k later) hdue hturn
      exact ⟨m, ((a.stepAmid arrivals dt).1.reloads_iff later k m).2 ⟨hdue.serves, hm, hwaits⟩⟩

/-! ### A script of two entities -/

/-- An entity comes with a script that is there already. -/
theorem spawn_of_known {a : App} {k : Path} {identity : String} {e : RegistryEntry}
    (he : a.registry.find? k = some e) (hk : k.Same (a.registry.keyOf a.workspace.files identity))
    (name : String) : ∃ key, k.Same key ∧ (a.spawn name [identity]).1.turns = a.turns ++ [key] ∧
      (a.spawn name [identity]).1.registry.Serves k := by
  have hsame := (Registry.key_of_find? he).symm
  rw [Registry.find?_congr _ hk] at he
  obtain ⟨w, r, hresolve⟩ := Registry.resolve_known
    (w := { a.workspace with host := (a.workspace.host.spawnNamed name).1 }) he
  obtain ⟨hform, -, hstanding⟩ := ScriptGroup.form_of_resolve hresolve (a.workspace.host.spawnNamed name).2
  have hgroups : (a.spawn name [identity]).1.groups =
      a.groups ++ [{ entity := (a.workspace.host.spawnNamed name).2, scripts := [(identity, e.key)] }] :=
    congrArg (fun g => a.groups ++ [g]) hform
  refine ⟨e.key, hsame, ?_, ?_⟩
  · unfold turns
    rw [hgroups, List.flatMap_append]
    rfl
  · refine (Registry.serves_congr (hstanding k)).2 (Registry.serves_iff.2 ⟨a.registry.usersAt k + 1, ?_⟩)
    rw [Registry.standing?_resolve hresolve, if_pos hsame]

/-- An app with two entities that have the same script. -/
def pairApp : App := (spinApp.spawn "side" ["spin"]).1

theorem turns_pairApp : ∃ key, Path.Same ⟨"/spin"⟩ key ∧ pairApp.turns = [⟨"/spin"⟩, key] ∧
    pairApp.registry.Serves ⟨"/spin"⟩ := by
  obtain ⟨s, s', hs', -⟩ := script?_spinApp
  obtain ⟨e, he, -⟩ := Registry.script?_eq_some.1 hs'
  have hsetting : spinApp.registry.setting = Registry.rooted.setting := (worked_spawn _ _ _).setting
  have hfiles : spinApp.workspace.files = Loading.spinFiles Script.spinSource := (worked_spawn _ _ _).files
  have hkey : Path.Same ⟨"/spin"⟩ (spinApp.registry.keyOf spinApp.workspace.files "spin") := by
    rw [hfiles, Registry.keyOf_congr hsetting rfl, keyOf_spin]
  obtain ⟨key, hsame, hturns, hserves⟩ := spawn_of_known he hkey "side"
  refine ⟨key, hsame, ?_, hserves⟩
  have hfirst : spinApp.turns = [⟨"/spin"⟩] := by
    obtain ⟨w, s, hresolve, -, -, -⟩ := resolve_spin (({} : Stage).spawnNamed "top").1
    have hgroups : spinApp.groups = [{ entity := ⟨0, 1⟩, scripts := [("spin", ⟨"/spin"⟩)] }] :=
      congrArg (fun g => [g]) (ScriptGroup.form_of_resolve hresolve ⟨0, 1⟩).1
    unfold turns
    rw [hgroups]
    rfl
  exact hturns.trans (congrArg (· ++ [key]) hfirst)

/-- A change of the script is reported before each of its two turns, and each of them reloads it. -/
theorem reloaded_twice_in_one_step :
    pairApp.Reloads (fun _ => [⟨"/spin"⟩]) ⟨"/spin"⟩ 0 ∧ pairApp.Reloads (fun _ => [⟨"/spin"⟩]) ⟨"/spin"⟩ 1 := by
  obtain ⟨key, hsame, hturns, hserves⟩ := turns_pairApp
  have hspin : Path.Same ⟨"/spin"⟩ ⟨"/spin"⟩ := .refl _
  have htold : ∀ n, Told ⟨"/spin"⟩ (fun _ => [⟨"/spin"⟩]) n := fun _ => ⟨_, List.mem_cons_self, hspin⟩
  refine ⟨(reloads_iff ..).2 ⟨hserves, ?_, ?_⟩, (reloads_iff ..).2 ⟨hserves, ?_, ?_⟩⟩
  · exact ⟨_, by rw [hturns]; rfl, hspin⟩
  · exact waits_zero.2 (.inr (htold 0))
  · exact ⟨key, by rw [hturns]; rfl, hsame⟩
  · exact .inr ⟨1, Nat.le_refl 1, htold 1, fun m hle hlt => by omega⟩

end App

end HotReload
