import HotReload.Body.Machine

/-! # The measure of a run

    A run goes on within a measure, and ends with the fault `exhausted` when it has used
    it up.  That is the only trace which the measure leaves.  A run that ends in any other
    way, with a value, a fault of the language or a return, ends in this way under every
    larger measure, with the same instance and the same lines printed.

    `perform` does a task with the tasks inside it done by another function.  So one run is
    *below* another one if it does the same unless it is cut short, and whatever is put
    together from runs that are below others is below what is put together from these.
    The reason is that nothing takes up a cut: a loop hands on every fault, and `attempt`
    hands on those that it cannot catch.  The rest is an induction on the measure. -/

namespace HotReload.Body

/-! ## Section 1 - runs that are cut short -/

/-- A run that ended for want of a measure. -/
def IsCut {α : Type} (r : Except Exit α) : Prop := ∃ place, r = .error (.fault (.raised .exhausted place))

theorem isCut_error {α β : Type} {e : Exit} (h : IsCut (.error e : Except Exit α)) : IsCut (.error e : Except Exit β) := by
  obtain ⟨place, heq⟩ := h
  exact ⟨place, congrArg Except.error (Except.error.inj heq)⟩

theorem not_isCut_ok {α : Type} (a : α) : ¬ IsCut (.ok a : Except Exit α) := fun ⟨_, heq⟩ => nomatch heq

/-- One run does what another one does, unless it is cut short. -/
def Below {α : Type} (x y : Eval α) : Prop := ∀ m : Machine, IsCut (x.run m).1 ∨ x.run m = y.run m

section runs
variable {α β : Type} {m m' : Machine}

theorem run_bind_ok {x : Eval α} {a : α} (h : x.run m = (.ok a, m')) (f : α → Eval β) :
    (x >>= f).run m = (f a).run m' := by
  show ExceptT.bindCont f (x.run m).1 (x.run m).2 = _
  rw [h]
  rfl

theorem run_bind_error {x : Eval α} {e : Exit} (h : x.run m = (.error e, m')) (f : α → Eval β) :
    (x >>= f).run m = (.error e, m') := by
  show ExceptT.bindCont f (x.run m).1 (x.run m).2 = _
  rw [h]
  rfl

theorem run_tryCatch_ok {x : Eval α} {a : α} (h : x.run m = (.ok a, m')) (handle : Exit → Eval α) :
    (tryCatch x handle).run m = (.ok a, m') := by
  have hx : x m = (.ok a, m') := h
  simp only [tryCatch, tryCatchThe, MonadExceptOf.tryCatch, ExceptT.tryCatch, ExceptT.run, ExceptT.mk, Bind.bind,
    StateT.bind, hx]
  rfl

theorem run_tryCatch_error {x : Eval α} {e : Exit} (h : x.run m = (.error e, m')) (handle : Exit → Eval α) :
    (tryCatch x handle).run m = (handle e).run m' := by
  have hx : x m = (.error e, m') := h
  simp only [tryCatch, tryCatchThe, MonadExceptOf.tryCatch, ExceptT.tryCatch, ExceptT.run, ExceptT.mk, Bind.bind,
    StateT.bind, hx]

end runs

namespace Below
variable {α β : Type} {x y : Eval α}

theorem refl (x : Eval α) : Below x x := fun _ => .inr rfl

theorem bind {f g : α → Eval β} (h : Below x y) (hf : ∀ a, Below (f a) (g a)) : Below (x >>= f) (y >>= g) := by
  intro m
  rcases hx : x.run m with ⟨e | a, m'⟩
  · rw [run_bind_error hx]
    rcases h m with hcut | heq
    · rw [hx] at hcut
      exact .inl (isCut_error hcut)
    · rw [run_bind_error (heq ▸ hx)]
      exact .inr rfl
  -- a value is no cut, so the two agree and the rest goes on from one state
  · have heq : x.run m = y.run m := (h m).resolve_left (by rw [hx]; exact not_isCut_ok a)
    rw [run_bind_ok hx, run_bind_ok (heq ▸ hx)]
    exact hf a m'

/-- A handler that hands on a cut takes nothing up. -/
theorem tryCatch {h k : Exit → Eval α} (hx : Below x y) (hhandle : ∀ e, Below (h e) (k e))
    (hcut : ∀ place m, IsCut ((h (.fault (.raised .exhausted place))).run m).1) :
    Below (MonadExcept.tryCatch x h) (MonadExcept.tryCatch y k) := by
  intro m
  rcases hrun : x.run m with ⟨e | a, m'⟩
  · rw [run_tryCatch_error hrun]
    rcases hx m with hends | heq
    · rw [hrun] at hends
      obtain ⟨place, hplace⟩ := hends
      cases hplace
      exact .inl (hcut place m')
    · rw [run_tryCatch_error (heq ▸ hrun)]
      exact hhandle e m'
  · have heq : x.run m = y.run m := (hx m).resolve_left (by rw [hrun]; exact not_isCut_ok a)
    rw [run_tryCatch_ok hrun, run_tryCatch_ok (heq ▸ hrun)]
    exact .inr rfl

theorem inBlock (h : Below x y) : Below (Body.inBlock x) (Body.inBlock y) := by
  intro m
  have hrun (x : Eval α) : (Body.inBlock x).run m =
      ((x.run m).1, { (x.run m).2 with
        scope := (x.run m).2.scope.drop ((x.run m).2.scope.length - m.scope.length) }) := rfl
  rw [hrun x, hrun y]
  rcases h m with hcut | heq
  · exact .inl hcut
  · exact .inr (by rw [heq])

theorem mapM {γ : Type} {f g : γ → Eval α} (h : ∀ c, Below (f c) (g c)) (cs : List γ) :
    Below (cs.mapM f) (cs.mapM g) := by
  induction cs with
  | nil => exact .refl _
  | cons c cs ih =>
    rw [List.mapM_cons, List.mapM_cons]
    exact (h c).bind fun a => ih.bind fun as => .refl _

theorem ite {c : Prop} [Decidable c] {x' y' : Eval α} (h : Below x y) (h' : Below x' y') :
    Below (if c then x else x') (if c then y else y') := by
  split
  · exact h
  · exact h'

/-- A round of a loop hands on a cut like every other fault. -/
theorem round {x y : Eval Value} (h : Below x y) : Below (Body.round x) (Body.round y) :=
  (h.inBlock.bind fun _ => .refl _).tryCatch (fun _ => .refl _) fun place _ => ⟨place, rfl⟩

end Below

/-! ## Section 2 - calls and chains -/

/-- A run that leaves a state as a call or a walk left it. -/
theorem Below.of_outcome {γ : Type} {f g : Machine → (Except Exit Value × γ) × Machine}
    (h : ∀ m, IsCut (f m).1.1 ∨ f m = g m) (after : γ → Machine → Machine) :
    Below (do let ((result, kept), m) := f (← get); set (after kept m); callNamed.liftExcept result)
      (do let ((result, kept), m) := g (← get); set (after kept m); callNamed.liftExcept result) := by
  intro m
  have hrun (f : Machine → (Except Exit Value × γ) × Machine) :
      ExceptT.run (do let ((result, kept), m) := f (← get); set (after kept m); callNamed.liftExcept result) m =
        ((f m).1.1, after (f m).1.2 (f m).2) := by
    show ExceptT.run (callNamed.liftExcept (f m).1.1) (after (f m).1.2 (f m).2) = _
    cases (f m).1.1 <;> rfl
  rw [hrun f, hrun g]
  rcases h m with hcut | heq
  · exact .inl hcut
  · exact .inr (by rw [heq])

section tasks
variable {setup : Setup} {r r' : Task → Eval Value} (h : ∀ task, Below (r task) (r' task))
include h

/-- A call is cut short if its function is, and then leaves the instance as the function does. -/
theorem callFunction_below (f : Function) (args : List Value) (self : Option Value) (site : Option Place)
    (m : Machine) :
    IsCut (callFunction r f args self site m).1.1 ∨
      callFunction r f args self site m = callFunction r' f args self site m := by
  unfold callFunction
  split
  · exact .inr rfl
  · extract_lets frame
    rcases h (.statements f.body) frame with hcut | heq
    · left
      obtain ⟨place, hplace⟩ := hcut
      rcases hrun : (r (.statements f.body)).run frame with ⟨result, after⟩
      rw [hrun] at hplace
      cases hplace
      -- the fault is told at the place of the call, if there is one
      cases site with
      | none => exact ⟨place, rfl⟩
      | some site => exact ⟨site, rfl⟩
    · rw [heq]
      exact .inr rfl

theorem callNamed_below (place : Place) (name : String) (args : List Value) :
    Below (callNamed setup r place name args) (callNamed setup r' place name args) := by
  unfold callNamed
  split
  · next f _ => exact .of_outcome (fun m => callFunction_below h f args none (some place) m) fun _ m => m
  · exact .refl _

theorem method_below (place : Place) (name : String) (args : List Value) (target : Value) (m : Machine) :
    IsCut (walk.method setup r place name args target m).1.1 ∨
      walk.method setup r place name args target m = walk.method setup r' place name args target m := by
  unfold walk.method
  split
  · next f _ =>
    rcases callFunction_below h f args (some target) (some place) m with hcut | heq
    · exact .inl hcut
    · exact .inr (by rw [heq])
  · exact .inr rfl

/-- A walk is cut short only in a method on the way. -/
theorem walk_below (ending : Ending) (steps : List ReadyStep) (target : Value) (m : Machine) :
    IsCut (walk setup r ending steps target m).1.1 ∨
      walk setup r ending steps target m = walk setup r' ending steps target m := by
  induction steps generalizing target m with
  | nil =>
    unfold walk
    exact .inr rfl
  | cons step more ih =>
    unfold walk
    cases step with
    | field place name =>
      dsimp only
      split
      · next es =>
        rcases ih (Value.entry es name) m with hcut | heq
        · exact .inl hcut
        · exact .inr (by rw [heq])
      · split
        · next v _ =>
          rcases ih v m with hcut | heq
          · exact .inl hcut
          · exact .inr (by rw [heq])
        · exact .inr rfl
    | index place index =>
      dsimp only
      split
      · exact .inr rfl
      · next v _ =>
        rcases ih v m with hcut | heq
        · left
          split <;> exact hcut
        · exact .inr (by rw [heq])
    | guard =>
      dsimp only
      split
      · exact .inr rfl
      · exact ih target m
    | method place name args =>
      dsimp only
      -- either the method is cut short or the steps behind it are
      rcases method_below h place name args target m with hcut | heq
      · left
        rcases hmethod : walk.method setup r place name args target m with ⟨⟨e | v, self⟩, m'⟩
        · rw [hmethod] at hcut
          exact hcut
        · rw [hmethod] at hcut
          exact absurd hcut (not_isCut_ok v)
      · rw [heq]
        rcases walk.method setup r' place name args target m with ⟨⟨e | v, self⟩, m'⟩
        · exact .inr rfl
        · rcases ih v m' with hcut | heq
          · exact .inl hcut
          · right
            dsimp only
            rw [heq]

theorem ready_below (step : Step) : Below (ready r step) (ready r' step) := by
  cases step with
  | field place name => exact .refl _
  | method place name args => exact (Below.mapM (fun e => h (.expr e)) args).bind fun _ => .refl _
  | index place index => exact (h (.expr index)).bind fun _ => .refl _
  | guard => exact .refl _

theorem chain_below (ending : Ending) (root : Expr) (steps : List Step) :
    Below (chain setup r ending root steps) (chain setup r' ending root steps) := by
  unfold chain
  refine (Below.mapM (ready_below h) steps).bind fun ready => ?_
  split
  · next name =>
    refine (Below.refl _).bind fun state => ?_
    split
    · exact .refl _
    · next b _ =>
      refine .ite (.refl _) ?_
      exact .of_outcome (walk_below h ending ready b.value) fun v m => { m with scope := setIn name v m.scope }
  · refine (Below.refl _).bind fun state => ?_
    split
    · exact .refl _
    · next self _ => exact .of_outcome (walk_below h ending ready self) fun v m => { m with self := some v }
  · exact (h _).bind fun v => .of_outcome (walk_below h ending ready v) fun _ m => m

/-! ## Section 3 - expressions and statements -/

theorem truth_below (e : Expr) : Below (truth r e) (truth r' e) :=
  (h (.expr e)).bind fun _ => .refl _

theorem goesOn_below (condition : Option Expr) : Below (goesOn r condition) (goesOn r' condition) := by
  cases condition with
  | none => exact .refl _
  | some e => exact truth_below h e

theorem evalExpr_below (e : Expr) :
    Below (evalExpr setup r e) (evalExpr setup r' e) := by
  match e with
  | .literal _ _ | .variable _ _ | .self _ => exact .refl _
  | .text place parts => exact (Below.mapM (fun e => h (.expr e)) parts).bind fun _ => .refl _
  | .array place items => exact (Below.mapM (fun e => h (.expr e)) items).bind fun _ => .refl _
  | .map place entries => exact (Below.mapM (fun _ => (h _).bind fun _ => .refl _) entries).bind fun _ => .refl _
  | .unary place op e => exact (h (.expr e)).bind fun _ => .refl _
  | .binary place op left right => exact (h (.expr left)).bind fun _ => (h (.expr right)).bind fun _ => .refl _
  | .both place left right =>
    exact (truth_below h left).bind fun _ => .ite ((truth_below h right).bind fun _ => .refl _) (.refl _)
  | .either place left right =>
    exact (truth_below h left).bind fun _ => .ite (.refl _) ((truth_below h right).bind fun _ => .refl _)
  | .coalesce place left right =>
    refine (h (.expr left)).bind fun v => ?_
    split
    · exact h (.expr right)
    · exact .refl _
  | .call place name args =>
    exact (Below.mapM (fun e => h (.expr e)) args).bind fun args => callNamed_below h place name args
  | .chain root steps => exact chain_below h .read root steps
  | .block place body => exact (h (.statements body)).inBlock

theorem firstOpen_below (otherwise : List Stmt) (arms : List Arm) :
    Below (firstOpen r otherwise arms) (firstOpen r' otherwise arms) := by
  induction arms with
  | nil => exact .refl _
  | cons arm arms ih =>
    unfold firstOpen
    split
    · exact (truth_below h _).bind fun _ => .ite (.refl _) ih
    · exact (Below.refl _).bind fun _ => .ite (.refl _) ih

theorem chosen_below (v : Value) (arms : List Arm) (otherwise : List Stmt) :
    Below (chosen r v arms otherwise) (chosen r' v arms otherwise) := by
  unfold chosen
  refine (Below.mapM (fun arm => ?_) arms).bind fun ready => firstOpen_below h otherwise _
  exact (Below.mapM (fun e => h (.expr e)) arm.cases).bind fun _ => .refl _

theorem rescued_below (fault : Fault) (name : Option String) (rescue : List Stmt) :
    Below (rescued r fault name rescue) (rescued r' fault name rescue) := by
  have hbody := (Below.refl (bindNamed name fault.caught)).bind fun _ => h (.statements rescue)
  exact (hbody.inBlock.bind fun _ => .refl _).tryCatch (fun _ => .refl _) fun place _ => ⟨place, rfl⟩

theorem evalStmt_below (s : Stmt) :
    Below (evalStmt setup r s) (evalStmt setup r' s) := by
  cases s with
  | expr e => exact h (.expr e)
  | declare place constant name value =>
    cases value with
    | none => exact .refl _
    | some e => exact (h (.expr e)).bind fun _ => .refl _
  | assign place op target value =>
    refine (h (.expr value)).bind fun v => ?_
    split
    · exact .refl _
    · exact .refl _
    · next root steps => exact chain_below h _ root steps
    · exact .refl _
  | branch place condition yes no =>
    exact (truth_below h condition).bind fun _ => .ite (h (.statements yes)).inBlock (h (.statements no)).inBlock
  | loop place condition body => exact h (.loop condition body)
  | repetition place body condition answer => exact h (.repetition body condition answer)
  | each place name counter items body =>
    refine (h (.expr items)).bind fun v => ?_
    split
    · next vs _ => exact h (.rounds name counter 0 vs body)
    · exact .refl _
  | choice place subject arms otherwise =>
    exact (h (.expr subject)).bind fun v => (chosen_below h v arms otherwise).bind fun body =>
      (h (.statements body)).inBlock
  | attempt place body name rescue =>
    refine (h (.statements body)).inBlock.tryCatch (fun e => ?_) fun place _ => ⟨place, rfl⟩
    split
    · next fault => exact .ite (rescued_below h fault name rescue) (.refl _)
    · exact .refl _
  | nested place body => exact (h (.statements body)).inBlock
  | leave place value =>
    cases value with
    | none => exact .refl _
    | some e => exact (h (.expr e)).bind fun _ => .refl _
  | again place => exact .refl _
  | yield place value =>
    cases value with
    | none => exact .refl _
    | some e => exact (h (.expr e)).bind fun _ => .refl _
  | raise place value =>
    cases value with
    | none => exact .refl _
    | some e => exact (h (.expr e)).bind fun _ => .refl _

theorem perform_below (task : Task) :
    Below (perform setup r task) (perform setup r' task) := by
  cases task with
  | expr e => exact evalExpr_below h e
  | statements body =>
    cases body with
    | nil => exact .refl _
    | cons s more =>
      cases more with
      | nil => exact evalStmt_below h s
      | cons t more => exact (evalStmt_below h s).bind fun _ => h (.statements (t :: more))
  | loop condition body =>
    refine (goesOn_below h condition).bind fun _ => .ite ((h (.statements body)).round.bind fun ending => ?_) (.refl _)
    split
    · exact .refl _
    · exact h (.loop condition body)
  | repetition body condition answer =>
    refine (h (.statements body)).round.bind fun ending => ?_
    cases ending with
    | left v => exact .refl _
    | skipped => exact h (.repetition body condition answer)
    | done => exact (truth_below h condition).bind fun _ => .ite (h (.repetition body condition answer)) (.refl _)
  | rounds name counter done items body =>
    cases items with
    | nil => exact .refl _
    | cons v vs =>
      have hbody := (Below.refl (bindNamed counter (.int done))).bind fun _ =>
        (Below.refl (bind name false v)).bind fun _ => h (.statements body)
      refine hbody.round.bind fun ending => ?_
      split
      · exact .refl _
      · exact h (.rounds name counter (done + 1) vs body)

end tasks

/-! ## Section 4 - larger measures -/

section measures
variable {setup : Setup} {n k : Nat}

/-- One more on the measure changes only what is cut short. -/
theorem run_below_succ (n : Nat) (task : Task) : Below (run setup n task) (run setup (n + 1) task) := by
  induction n generalizing task with
  | zero => exact fun m => .inl ⟨.start, rfl⟩
  | succ n ih => exact perform_below ih task

/-- A run that is not cut short is the same under every larger measure. -/
theorem run_eq_of_le (h : n ≤ k) {task : Task} {m : Machine} (hends : ¬ IsCut ((run setup n task).run m).1) :
    (run setup k task).run m = (run setup n task).run m := by
  induction h with
  | refl => rfl
  | step _ ih =>
    rw [← ih] at hends ⊢
    exact ((run_below_succ _ task m).resolve_left hends).symm

theorem run_below (h : n ≤ k) (task : Task) : Below (run setup n task) (run setup k task) := by
  intro m
  by_cases hcut : IsCut ((run setup n task).run m).1
  · exact .inl hcut
  · exact .inr (run_eq_of_le h hcut).symm

end measures

/-- A hook does under every larger measure what it does under that of a run, to the instance too, unless it ends as
    `exhausted`. -/
theorem Program.callHook_eq {engine : Engine} {program : Program} {hook : String} {args : List Value} {f : Function}
    (hf : program.function? hook args.length = some f) {self : Value}
    (hends : ∀ place, (program.callHook engine hook args self).1.result ≠ .error (.raised .exhausted place)) {k : Nat}
    (h : runMeasure ≤ k) :
    callFunction (run ⟨engine, program⟩ k) f args (some self) none {} =
      callFunction (run ⟨engine, program⟩ runMeasure) f args (some self) none {} := by
  refine ((callFunction_below (run_below h) f args (some self) none {}).resolve_left ?_).symm
  rintro ⟨place, hcut⟩
  refine hends place ?_
  unfold Program.callHook
  rw [hf]
  dsimp only
  rw [hcut]

end HotReload.Body
