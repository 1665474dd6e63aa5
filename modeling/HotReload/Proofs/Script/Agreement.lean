import HotReload.Proofs.Script.Offering
import HotReload.Proofs.World.Installation

/-! # What a call reaches, in a body and in an expression

    Expressions are evaluated by the compiler and bodies run on the stage, and each of the
    two has an engine of its own.  Both are filled from one set of modules, in its order, so
    a function of a module that comes later hides one with its signature from a module
    that comes earlier.

    There is one exception.  The stage has its own module from the beginning and passes over
    it in the set, while the compiler takes it where it stands.  A module that the set lists
    ahead of that of the stage is hidden by it for expressions, and hides it for bodies.
    Where nothing is listed ahead, the two agree on every call, except that the functions of
    a body itself come before those of all modules. -/

namespace HotReload

open Body

/-! ## Section 1 - what a signature reaches -/

namespace Engine
variable {name : String} {kinds : List Kind}

/-- What is installed later hides what was there. -/
theorem function?_append (a b : Engine) :
    Engine.function? (a ++ b) name kinds = (Engine.function? b name kinds).or (Engine.function? a name kinds) := by
  unfold Engine.function?
  rw [List.reverse_append, List.findSome?_append]

theorem function?_singleton (m : HostModule) : Engine.function? [m] name kinds = m.function? name kinds := by
  unfold Engine.function?
  simp

theorem function?_eq_none {engine : Engine} :
    Engine.function? engine name kinds = none ↔ ∀ m ∈ engine, m.function? name kinds = none := by
  unfold Engine.function?
  simp

/-- If no other module of an engine has a signature, it is the one that decides. -/
theorem function?_of_others {engine : Engine} {m : HostModule} (hm : m ∈ engine)
    (hothers : ∀ m' ∈ engine, m' = m ∨ m'.function? name kinds = none) :
    Engine.function? engine name kinds = m.function? name kinds := by
  cases hf : Engine.function? engine name kinds with
  | none => exact (function?_eq_none.1 hf m hm).symm
  | some f =>
    obtain ⟨m', hm', hf'⟩ := List.exists_of_findSome?_eq_some hf
    rcases hothers m' (List.mem_reverse.1 hm') with rfl | hnone
    · exact hf'.symm
    · cases hnone.symm.trans hf'

end Engine

/-! ## Section 2 - the place of the module of the stage -/

namespace ModuleSet

/-- The modules that a set lists ahead of that of the stage. -/
def ahead (modules : ModuleSet) : Engine := modules.takeWhile fun m => m.name ≠ stageModule.name

/-- The modules that it lists behind it. -/
def behind (modules : ModuleSet) : Engine := (modules.dropWhile fun m => m.name ≠ stageModule.name).tail

variable {modules : ModuleSet}

/-- A set that holds the module of the stage. -/
theorem eq_ahead_behind (hnd : modules.names.Nodup) (hown : stageModule ∈ modules) :
    modules = modules.ahead ++ stageModule :: modules.behind ∧
      modules.installable = modules.ahead ++ modules.behind := by
  obtain ⟨front, rest, rfl⟩ := List.append_of_mem hown
  rw [names, List.map_append, List.map_cons, List.nodup_append, List.nodup_cons] at hnd
  obtain ⟨-, ⟨hrest, -⟩, hdisjoint⟩ := hnd
  have hfront : ∀ m ∈ front, decide (m.name ≠ stageModule.name) = true := fun m hm =>
    decide_eq_true (hdisjoint _ (List.mem_map_of_mem hm) _ List.mem_cons_self)
  have hlater : ∀ m ∈ rest, decide (m.name ≠ stageModule.name) = true := fun m hm =>
    decide_eq_true fun hname => hrest (hname ▸ List.mem_map_of_mem hm)
  have hahead : ahead (front ++ stageModule :: rest) = front := by
    rw [ahead, List.takeWhile_append_of_pos hfront, List.takeWhile_cons_of_neg (by simp), List.append_nil]
  have hbehind : behind (front ++ stageModule :: rest) = rest := by
    rw [behind, List.dropWhile_append_of_pos hfront, List.dropWhile_cons_of_neg (by simp), List.tail_cons]
  refine ⟨by rw [hahead, hbehind], ?_⟩
  rw [hahead, hbehind, installable, List.filter_append, List.filter_cons_of_neg (by simp),
    List.filter_eq_self.2 hfront, List.filter_eq_self.2 hlater]

end ModuleSet

/-! ## Section 3 - a context and a stage -/

/-- A context, and a stage that may share its modules. -/
structure ContextWithStage where
  context : Context
  stage : Stage := {}

namespace ContextWithStage

/-- What can happen to the two. -/
inductive Move where
  | offer (m : HostModule)
  | compile (unit : String)
  | evaluate (expression : String)
  /-- The stage is told to follow the modules of the context. -/
  | share
  | request (a : Stage.Request)

def act (t : ContextWithStage) : Move → ContextWithStage
  | .offer m => { t with context := t.context.use (.offer m) }
  | .compile unit => { t with context := t.context.use (.compile unit) }
  | .evaluate expression => { t with context := t.context.use (.evaluate expression) }
  | .share => { t with stage := t.stage.act (.follow t.context.modules) }
  | .request a => { t with stage := t.stage.act (a.op t.context.modules) }

def run (t : ContextWithStage) (moves : List Move) : ContextWithStage := moves.foldl act t

/-- What expressions are evaluated with. -/
def evaluator (t : ContextWithStage) : Engine := t.context.bootstrap.1.compiler.engine

/-- What the scripts that run next run against. -/
def runtime (t : ContextWithStage) : Engine := (t.stage.sync t.context.modules).engine

/-- What the stage has installed is its own module and modules of the set, and the set comes last. -/
structure Stocked (t : ContextWithStage) (earlier : Engine) : Prop where
  own : stageModule ∈ earlier
  stock : ∀ m ∈ earlier, m = stageModule ∨ m ∈ t.context.modules.installable
  supplied : t.stage.Supplied earlier t.context.modules

/-- The compiler is abreast of the set, which holds the module of the stage, and a stage that follows the set is
    stocked with it. -/
structure Kept (t : ContextWithStage) : Prop where
  abreast : t.context.Abreast []
  own : stageModule ∈ t.context.modules
  alone : t.stage.following = false → t.stage.engine = [stageModule]
  stocked : t.stage.following = true → ∃ earlier, t.Stocked earlier

namespace Kept
variable {t : ContextWithStage}

/-- A use of the context, by which the set can only grow. -/
theorem use (h : t.Kept) (u : Context.Usage) (hu : t.context.slips u = []) :
    Kept { t with context := t.context.use u } where
  abreast := by simpa [hu] using h.abreast.use u
  own := (t.context.modules_use u).subset h.own
  alone := h.alone
  stocked := by
    intro hf
    obtain ⟨earlier, hs⟩ := h.stocked hf
    refine ⟨earlier, hs.own, fun m hm => ?_, hs.supplied.grow hf (t.context.modules_use u)⟩
    exact (hs.stock m hm).imp id fun hm' =>
      ((t.context.modules_use u).sublist.filter _).subset hm'

theorem share (h : t.Kept) : (t.act .share).Kept where
  abreast := h.abreast
  own := h.own
  alone := by
    intro hf
    have hfollowing : (t.stage.follow t.context.modules).following = true := by
      unfold Stage.follow Stage.sync
      rfl
    exact absurd (hfollowing.symm.trans hf) (by simp)
  stocked := by
    intro _
    -- whatever is installed by then counts as earlier: its own module, and modules of the set if it was shared before
    refine ⟨t.stage.engine, ?_, ?_, Stage.Supplied.follow t.stage t.context.modules⟩
    · cases hf : t.stage.following with
      | false =>
        rw [h.alone hf]
        exact List.mem_singleton_self _
      | true =>
        obtain ⟨earlier, hs⟩ := h.stocked hf
        rw [hs.supplied.engine]
        exact List.mem_append_left _ hs.own
    · intro m hm
      cases hf : t.stage.following with
      | false =>
        rw [h.alone hf] at hm
        exact .inl (List.mem_singleton.1 hm)
      | true =>
        obtain ⟨earlier, hs⟩ := h.stocked hf
        rw [hs.supplied.engine] at hm
        rcases List.mem_append.1 hm with hearly | hset
        · exact hs.stock m hearly
        · exact .inr (((List.take_sublist _ _).filter _).subset hset)

theorem request (h : t.Kept) (a : Stage.Request) : (t.act (.request a)).Kept := by
  obtain ⟨hfollowing, hengine⟩ := t.stage.following_request t.context.modules a
  refine ⟨h.abreast, h.own, fun hf => ?_, fun hf => ?_⟩
  · have hidle : t.stage.following = false := hfollowing.symm.trans hf
    exact (hengine hidle).trans (h.alone hidle)
  · obtain ⟨earlier, hs⟩ := h.stocked (hfollowing.symm.trans hf)
    exact ⟨earlier, hs.own, hs.stock, hs.supplied.request a⟩

theorem act (h : t.Kept) (move : Move) : (t.act move).Kept := by
  cases move with
  | offer m => exact h.use (.offer m) rfl
  | compile unit => exact h.use (.compile unit) rfl
  | evaluate expression => exact h.use (.evaluate expression) rfl
  | share => exact h.share
  | request a => exact h.request a

theorem run (h : t.Kept) (moves : List Move) : (t.run moves).Kept := by
  induction moves generalizing t with
  | nil => exact h
  | cons move more ih => exact ih (h.act move)

end Kept

theorem kept_start {modules : List HostModule} (hown : stageModule ∈ ModuleSet.ofList modules) :
    Kept ⟨.offering modules, {}⟩ where
  abreast := Context.abreast_offering modules
  own := hown
  alone := fun _ => rfl
  stocked := fun hf => absurd hf (by simp)

/-! ## Section 4 - what a call reaches -/

section reach
variable {t : ContextWithStage} {name : String} {kinds : List Kind}

/-- In a set, the module of the stage hides what is listed ahead of it. -/
theorem Kept.function?_modules (h : t.Kept) : Engine.function? t.context.modules name kinds =
    (Engine.function? t.context.modules.behind name kinds).or
      ((stageModule.function? name kinds).or (Engine.function? t.context.modules.ahead name kinds)) := by
  conv_lhs => rw [(ModuleSet.eq_ahead_behind h.abreast.nodup h.own).1]
  rw [← List.singleton_append, Engine.function?_append, Engine.function?_append, Engine.function?_singleton,
    Option.or_assoc]

/-- An expression reaches what the set has, and else what the compiler adds of its own. -/
theorem Kept.evaluates (h : t.Kept) : Engine.function? t.evaluator name kinds =
    (Engine.function? t.context.modules name kinds).or
      (t.context.bootstrap.1.compiler.reflection.function? name kinds) := by
  have hknown : t.context.bootstrap.1.compiler.modules = t.context.modules := by
    rw [h.abreast.known_bootstrap]
    simp
  rw [evaluator, Compiler.engine, hknown, ← List.singleton_append, Engine.function?_append,
    Engine.function?_singleton]

/-- In a body, it is the other way round. -/
theorem Kept.reaches (h : t.Kept) (hf : t.stage.following = true) : Engine.function? t.runtime name kinds =
    (Engine.function? t.context.modules.behind name kinds).or
      ((Engine.function? t.context.modules.ahead name kinds).or (stageModule.function? name kinds)) := by
  obtain ⟨earlier, hs⟩ := h.stocked hf
  have hset : Engine.function? t.context.modules.installable name kinds =
      (Engine.function? t.context.modules.behind name kinds).or
        (Engine.function? t.context.modules.ahead name kinds) := by
    rw [(ModuleSet.eq_ahead_behind h.abreast.nodup h.own).2, Engine.function?_append]
  have hengine : t.runtime = earlier ++ t.context.modules.installable := hs.supplied.engine_sync
  rw [hengine, Engine.function?_append, ← Option.or_assoc, ← hset]
  cases hfound : Engine.function? t.context.modules.installable name kinds with
  | some f => rfl
  | none =>
    -- What was installed earlier and is not the module of the stage has nothing to offer that the set has not.
    refine Engine.function?_of_others hs.own fun m hm => (hs.stock m hm).imp id fun hm' => ?_
    exact Engine.function?_eq_none.1 hfound m hm'

end reach

/-! ## Section 5 - the main theorem -/

/-- Some module of the set has a signature. -/
def Registers (t : ContextWithStage) (name : String) (kinds : List Kind) : Prop :=
  ∃ m ∈ t.context.modules, (m.function? name kinds).isSome = true

/-- A signature of the module of the stage, which a module listed ahead has with another function and none listed
    behind has at all. -/
def Parted (t : ContextWithStage) (name : String) (kinds : List Kind) : Prop :=
  Engine.function? t.context.modules.behind name kinds = none ∧
    ∃ f g, stageModule.function? name kinds = some f ∧
      Engine.function? t.context.modules.ahead name kinds = some g ∧ f ≠ g

/-- How calls in bodies go together with calls in expressions. -/
structure Agreement (t : ContextWithStage) : Prop where
  /-- An expression reaches what comes last in the set. -/
  evaluates : ∀ name kinds, t.Registers name kinds →
    Engine.function? t.evaluator name kinds =
      (Engine.function? t.context.modules.behind name kinds).or
        ((stageModule.function? name kinds).or (Engine.function? t.context.modules.ahead name kinds))
  /-- A body reaches what comes last in the set but for the module of the stage, and that if there is nothing else. -/
  reaches : ∀ name kinds, Engine.function? t.runtime name kinds =
    (Engine.function? t.context.modules.behind name kinds).or
      ((Engine.function? t.context.modules.ahead name kinds).or (stageModule.function? name kinds))
  /-- So they reach the same, except for the signatures on which they part. -/
  agree_iff : ∀ name kinds, t.Registers name kinds →
    (Engine.function? t.runtime name kinds = Engine.function? t.evaluator name kinds ↔ ¬ t.Parted name kinds)
  /-- There are none of these where nothing is listed ahead. -/
  together : t.context.modules.head? = some stageModule → ∀ name kinds, ¬ t.Parted name kinds
  /-- A call in a body then does what it does in an expression, if the body has no function of its own for it. -/
  calls : ∀ name (args : List Value), t.Registers name (args.map Value.kind) →
    ¬ t.Parted name (args.map Value.kind) →
    ∀ program : Program, program.function? name args.length = none → ∀ recurse place,
      callNamed ⟨t.runtime, program⟩ recurse place name args =
        callNamed ⟨t.evaluator, .empty⟩ recurse place name args
  /-- A function of the body itself is reached whatever the modules are. -/
  owned : ∀ name (args : List Value) (program : Program),
    (program.function? name args.length).isSome = true → ∀ engine recurse place,
      callNamed ⟨t.runtime, program⟩ recurse place name args = callNamed ⟨engine, program⟩ recurse place name args

/-- A call without a function of the program goes by what its signature reaches. -/
theorem callNamed_congr {engine engine' : Engine} {program program' : Program} {name : String} {args : List Value}
    (hnone : program.function? name args.length = none) (hnone' : program'.function? name args.length = none)
    (hsame : Engine.function? engine name (args.map Value.kind) = Engine.function? engine' name (args.map Value.kind))
    (recurse : Task → Eval Value) (place : Place) :
    callNamed ⟨engine, program⟩ recurse place name args = callNamed ⟨engine', program'⟩ recurse place name args := by
  unfold callNamed
  simp only [hnone, hnone', hsame]

theorem Kept.agreement {t : ContextWithStage} (h : t.Kept) (hf : t.stage.following = true) : t.Agreement := by
  have hevaluates : ∀ name kinds, t.Registers name kinds → Engine.function? t.evaluator name kinds =
      (Engine.function? t.context.modules.behind name kinds).or
        ((stageModule.function? name kinds).or (Engine.function? t.context.modules.ahead name kinds)) := by
    rintro name kinds ⟨m, hm, hsome⟩
    rw [h.evaluates, ← h.function?_modules]
    cases hfound : Engine.function? t.context.modules name kinds with
    | some f => rfl
    | none => simp [Engine.function?_eq_none.1 hfound m hm] at hsome
  have hagree : ∀ name kinds, t.Registers name kinds →
      (Engine.function? t.runtime name kinds = Engine.function? t.evaluator name kinds ↔
        ¬ t.Parted name kinds) := by
    intro name kinds hregisters
    rw [hevaluates name kinds hregisters, h.reaches hf]
    unfold Parted
    -- who has the signature: a module listed behind, that of the stage, one listed ahead
    cases Engine.function? t.context.modules.behind name kinds <;>
      cases stageModule.function? name kinds <;>
      cases Engine.function? t.context.modules.ahead name kinds <;> simp [eq_comm]
  refine ⟨hevaluates, fun name kinds => h.reaches hf, hagree, ?_, ?_, ?_⟩
  · rintro hhead name kinds ⟨-, f, g, -, hahead, -⟩
    obtain ⟨rest, hmodules⟩ := List.head?_eq_some_iff.1 hhead
    rw [hmodules, ModuleSet.ahead, List.takeWhile_cons_of_neg (by simp)] at hahead
    cases hahead
  · intro name args hregisters hparted program hnone recurse place
    exact callNamed_congr hnone rfl ((hagree name _ hregisters).2 hparted) recurse place
  · intro name args program hown engine recurse place
    obtain ⟨f, hfun⟩ := Option.isSome_iff_exists.1 hown
    unfold callNamed
    simp only [hfun]

/-- Whatever modules a context is given and in whatever order, as long as that of the stage is among them, and whatever
    is offered, compiled, evaluated, shared and done on the stage: what a call reaches in a body is what it reaches in an
    expression, except for the functions of the body itself and for the signatures on which the two part. -/
theorem calls_agree (modules : List HostModule) (hown : stageModule ∈ ModuleSet.ofList modules) (moves : List Move)
    (hf : (run ⟨.offering modules, {}⟩ moves).stage.following = true) :
    (run ⟨.offering modules, {}⟩ moves).Agreement :=
  ((kept_start hown).run moves).agreement hf

theorem calls_agree_behind_seven :
    (run ⟨.offering [Context.sevenModule, stageModule], {}⟩ [.share, .offer stageModule]).Agreement :=
  calls_agree [Context.sevenModule, stageModule] (List.mem_cons_of_mem _ List.mem_cons_self) [.share, .offer stageModule] rfl

/-- A module with a `log` that answers. -/
def answeringModule : HostModule where
  name := "answering"
  functions := [{ name := "log", params := [.string], run := fun _ => ⟨.ok (.int 1), []⟩ }]

/-- A function that answers a blank text with a number, as the `log` of the stage does not. -/
def answersNumber (f : HostFunction) : Bool :=
  match (f.run [.string ""]).result with
  | .ok (.int _) => true
  | _ => false

/-- A body with a function that a module has as well. -/
def ownSeven : Program :=
  ⟨[.declare ⟨1, 1⟩ false "x" (some (.call ⟨1, 9⟩ "seven" []))], [⟨"seven", [], [.expr (.literal ⟨1, 30⟩ (.int 9))]⟩]⟩

/-- What a call of `seven` gives in that body, and what it gives in an expression. -/
def sevens (t : ContextWithStage) : Option (Int × Int) :=
  match (ownSeven.instantiate t.runtime).result, (t.context.evaluate "seven()").value with
  | .ok (.map [("x", .int inBody)]), .ok (.int inExpression) => some (inBody, inExpression)
  | _, _ => none

/-- Bodies and expressions do not reach the same in general.  A module that is listed ahead of that of the stage is what
    a body reaches, and not what an expression does; and a body reaches a function of its own. -/
theorem bodies_part_from_expressions :
    (¬ ∀ (modules : List HostModule) (moves : List Move), stageModule ∈ ModuleSet.ofList modules →
      (run ⟨.offering modules, {}⟩ moves).stage.following = true →
      ∀ name kinds, (run ⟨.offering modules, {}⟩ moves).Registers name kinds →
        Engine.function? (run ⟨.offering modules, {}⟩ moves).runtime name kinds =
          Engine.function? (run ⟨.offering modules, {}⟩ moves).evaluator name kinds) ∧
    sevens (run ⟨.offering [stageModule, Context.sevenModule], {}⟩ [.share]) = some (9, 7) := by
  refine ⟨fun hagree => ?_, by decide +kernel⟩
  have hsame := hagree [answeringModule, stageModule] [.share] (List.mem_cons_of_mem _ List.mem_cons_self) rfl
    "log" [.string] ⟨stageModule, List.mem_cons_of_mem _ List.mem_cons_self, rfl⟩
  have hanswers := congrArg (Option.any answersNumber) hsame
  revert hanswers
  decide +kernel

end ContextWithStage

end HotReload
