import HotReload.Text.Place

/-! # The syntax of bodies

A body is a small program: statements that set up the fields of an instance, and functions, some of which
are hooks. Each piece carries the place that faults of that piece point at, counted from the start of
the body.

This is the language of one script on its own. What it has none of are functions as values, so closures and
function pointers, and what reaches beyond the script: `import`, `export` and `eval`. The functions that come with the
language are `len`, `push` and `contains`; a host module can offer any other that only computes a value.
-/

namespace HotReload.Body

/-- Operators before an operand. -/
inductive UnaryOp where
  | minus
  | plus
  | not
  deriving DecidableEq, Repr, Inhabited

/-- Operators between two operands that evaluate both. -/
inductive BinaryOp where
  | add
  | sub
  | mul
  | div
  | rem
  | power
  /-- Bit by bit on whole numbers; on truth values, with both sides evaluated. -/
  | bitAnd
  | bitOr
  | bitXor
  | shiftLeft
  | shiftRight
  | eq
  | ne
  | lt
  | le
  | gt
  | ge
  /-- A range that leaves out its end. -/
  | range
  /-- A range that holds its end. -/
  | rangeInclusive
  deriving DecidableEq, Repr, Inhabited

/-- The spelling of an operator. -/
def UnaryOp.symbol : UnaryOp → String
  | .minus => "-"
  | .plus => "+"
  | .not => "!"

/-- The spelling of an operator. -/
def BinaryOp.symbol : BinaryOp → String
  | .add => "+"
  | .sub => "-"
  | .mul => "*"
  | .div => "/"
  | .rem => "%"
  | .power => "**"
  | .bitAnd => "&"
  | .bitOr => "|"
  | .bitXor => "^"
  | .shiftLeft => "<<"
  | .shiftRight => ">>"
  | .eq => "=="
  | .ne => "!="
  | .lt => "<"
  | .le => "<="
  | .gt => ">"
  | .ge => ">="
  | .range => ".."
  | .rangeInclusive => "..="

/-- A value that is written out. -/
inductive Literal where
  | unit
  | bool (b : Bool)
  | int (n : Int)
  | float (x : Float)
  | char (c : Char)
  | string (s : String)
  deriving Repr, Inhabited

mutual

/-- An expression. -/
inductive Expr where
  | literal (place : Place) (value : Literal)
  /-- A text whose parts are joined. -/
  | text (place : Place) (parts : List Expr)
  | array (place : Place) (items : List Expr)
  | map (place : Place) (entries : List (String × Expr))
  | variable (place : Place) (name : String)
  /-- The instance that a function works on. -/
  | self (place : Place)
  | unary (place : Place) (op : UnaryOp) (operand : Expr)
  | binary (place : Place) (op : BinaryOp) (left right : Expr)
  /-- A conjunction, which skips its right side when the left is false. -/
  | both (place : Place) (left right : Expr)
  /-- A disjunction, which skips its right side when the left is true. -/
  | either (place : Place) (left right : Expr)
  /-- The left value, or the right one where the left is unit. -/
  | coalesce (place : Place) (left right : Expr)
  | call (place : Place) (name : String) (args : List Expr)
  /-- A value and the steps that lead into it. -/
  | chain (root : Expr) (steps : List Step)
  /-- Statements whose last value is the value of the whole. -/
  | block (place : Place) (body : List Stmt)

/-- One step into a value. -/
inductive Step where
  | field (place : Place) (name : String)
  | method (place : Place) (name : String) (args : List Expr)
  | index (place : Place) (index : Expr)
  /-- Ends the chain with unit where the value so far is unit. -/
  | guard

/-- A statement. -/
inductive Stmt where
  | expr (value : Expr)
  | declare (place : Place) (constant : Bool) (name : String) (value : Option Expr)
  | assign (place : Place) (op : Option BinaryOp) (target value : Expr)
  | branch (place : Place) (condition : Expr) (yes no : List Stmt)
  /-- A loop that ends when its condition fails, or without one only by a break. -/
  | loop (place : Place) (condition : Option Expr) (body : List Stmt)
  /-- A loop that asks after each round whether its condition still has the answer with which it goes on. -/
  | repetition (place : Place) (body : List Stmt) (condition : Expr) (answer : Bool)
  /-- A loop over the items of a value, which may count them in a second variable. -/
  | each (place : Place) (name : String) (counter : Option String) (items : Expr) (body : List Stmt)
  /-- A choice among arms by the value of the subject, with what is done where no arm is for it. -/
  | choice (place : Place) (subject : Expr) (arms : List Arm) (otherwise : List Stmt)
  /-- Statements, with those to run after a fault in them, which may name the fault. -/
  | attempt (place : Place) (body : List Stmt) (name : Option String) (rescue : List Stmt)
  | nested (place : Place) (body : List Stmt)
  /-- Ends the loop around it with a value. -/
  | leave (place : Place) (value : Option Expr)
  /-- Goes on with the next round of the loop around it. -/
  | again (place : Place)
  /-- Ends the function around it, or the body, with a value. -/
  | yield (place : Place) (value : Option Expr)
  /-- Raises a fault that carries a value. -/
  | raise (place : Place) (value : Option Expr)

/-- An arm of a choice: the values and ranges that it is for, a condition besides, and what it does. -/
inductive Arm where
  | mk (cases : List Expr) (condition : Option Expr) (action : List Stmt)

end

instance : Inhabited Expr := ⟨.literal .start .unit⟩

instance : Inhabited Stmt := ⟨.expr default⟩

namespace Arm

/-- The values and ranges that an arm is for. -/
def cases : Arm → List Expr
  | mk cases _ _ => cases

/-- The condition of an arm besides. -/
def condition : Arm → Option Expr
  | mk _ condition _ => condition

/-- What an arm does. -/
def action : Arm → List Stmt
  | mk _ _ action => action

end Arm

/-- A function of a body. Functions are told apart by name and number of parameters. -/
structure Function where
  name : String
  params : List String
  body : List Stmt
  deriving Inhabited

/-- A body: the statements at its top, and its functions. -/
structure Program where
  statements : List Stmt
  functions : List Function
  deriving Inhabited

/-- The program of an empty body. -/
def Program.empty : Program := ⟨[], []⟩

/-- The function of a name and a number of parameters. -/
def Program.function? (p : Program) (name : String) (arity : Nat) : Option Function :=
  p.functions.find? fun f => f.name = name ∧ f.params.length = arity

/-- Where a fault of the whole expression points. -/
def Expr.place : Expr → Place
  | .literal p _ | .text p _ | .array p _ | .map p _ | .variable p _ | .self p | .unary p _ _
  | .binary p _ _ _ | .both p _ _ | .either p _ _ | .coalesce p _ _ | .call p _ _ | .block p _ => p
  | .chain root _ => root.place

/-- Where an expression begins, which for an operator between two operands is where the left one does. -/
def Expr.start : Expr → Place
  | .binary _ _ left _ | .both _ left _ | .either _ left _ | .coalesce _ left _ => left.start
  | .chain root _ => root.start
  | e => e.place

/-- A statement that stands as an expression. -/
def Stmt.asExpr (place : Place) : Stmt → Expr
  | .nested _ body => .block place body
  | s => .block place [s]

/-! ## Values that are written out -/

/-- Whether an expression is a range between two numbers that are written out. -/
def Expr.isRange : Expr → Bool
  | .binary _ .range (.literal _ (.int _)) (.literal _ (.int _))
  | .binary _ .rangeInclusive (.literal _ (.int _)) (.literal _ (.int _)) => true
  | _ => false

/-- Whether an expression is a whole number that is written out. -/
def Expr.isNumber : Expr → Bool
  | .literal _ (.int _) => true
  | _ => false

mutual

/-- Whether the value of an expression is written out. -/
def Expr.isConstant : Expr → Bool
  | .literal .. => true
  | .array _ items => Expr.allConstant items
  | .map _ entries => Expr.entriesConstant entries
  | e => e.isRange

/-- Whether the values of all of some expressions are written out. -/
def Expr.allConstant : List Expr → Bool
  | [] => true
  | e :: es => e.isConstant && Expr.allConstant es

/-- Whether the values of all entries are written out. -/
def Expr.entriesConstant : List (String × Expr) → Bool
  | [] => true
  | (_, e) :: es => e.isConstant && Expr.entriesConstant es

end

/-! ## Statements without effect

What does nothing but name or collect values is left out of a program wherever nothing takes its value.
-/

mutual

/-- Whether an expression does nothing but name or collect values. -/
def Expr.isInert : Expr → Bool
  | .literal .. | .variable .. => true
  | .text _ parts | .array _ parts => Expr.allInert parts
  | .map _ entries => Expr.entriesInert entries
  | .both _ left right | .either _ left right | .coalesce _ left right => left.isInert && right.isInert
  | .block _ body => Stmt.allInert body
  | _ => false

/-- Whether all of some expressions are inert. -/
def Expr.allInert : List Expr → Bool
  | [] => true
  | e :: es => e.isInert && Expr.allInert es

/-- Whether the values of all entries are inert. -/
def Expr.entriesInert : List (String × Expr) → Bool
  | [] => true
  | (_, e) :: es => e.isInert && Expr.entriesInert es

/-- Whether a statement does nothing but have a value. A loop with a condition counts as doing something, because it
need not end. -/
def Stmt.isInert : Stmt → Bool
  | .expr e => e.isInert
  | .branch _ condition yes no => condition.isInert && Stmt.allInert yes && Stmt.allInert no
  | .each _ _ _ items body => items.isInert && Stmt.allInert body
  | .choice _ subject arms otherwise => subject.isInert && Arm.allInert arms && Stmt.allInert otherwise
  | .attempt _ body _ rescue => Stmt.allInert body && Stmt.allInert rescue
  | .nested _ body => Stmt.allInert body
  | _ => false

/-- Whether all of some statements are inert. -/
def Stmt.allInert : List Stmt → Bool
  | [] => true
  | s :: ss => s.isInert && Stmt.allInert ss

/-- Whether the conditions and the actions of all arms are inert. The cases are written out, so they always are. -/
def Arm.allInert : List Arm → Bool
  | [] => true
  | .mk _ none action :: arms => Stmt.allInert action && Arm.allInert arms
  | .mk _ (some condition) action :: arms => condition.isInert && Stmt.allInert action && Arm.allInert arms

end

/-- Whether a statement may have a value other than unit. -/
def Stmt.hasValue : Stmt → Bool
  | .expr _ | .nested .. => true
  | .branch _ _ yes no => !(yes.isEmpty && no.isEmpty)
  | .choice .. => true
  | _ => false

/-- Statements without those that have a value which nothing takes. The last one stays if it has a value, since that is
the value of the whole. -/
def dropInert : List Stmt → List Stmt
  | [] => []
  | [s] => if s.isInert && !s.hasValue then [] else [s]
  | s :: t :: more => if s.isInert then dropInert (t :: more) else s :: dropInert (t :: more)

/-- The body of a loop, whose value nothing takes either. -/
def dropInertEnd (body : List Stmt) : List Stmt := (body.reverse.dropWhile Stmt.isInert).reverse

end HotReload.Body
