import HotReload.Body.Token

/-! # Why a body is no program

The faults of the grammar, each with the place of the word that cannot stand where it stands.
-/

namespace HotReload.Body

/-- Why words form no program. -/
inductive ParseCause where
  | lex (fault : LexFault)
  /-- The body ends where an expression is due. -/
  | incomplete
  | unknownOperator (symbol : String)
  | missing (token why : String)
  | expressionExpected (what : String)
  | mismatch (expected found : String)
  | variableExpected
  | propertyExpected
  | reserved (word : String)
  | duplicateProperty (name : String)
  | functionName
  | functionParams (function : String)
  | functionBody (function : String)
  | duplicateParam (function param : String)
  | duplicateFunction (function : String) (arity : Nat)
  | duplicateVariable (name : String)
  /-- A second arm for what no other arm is for. -/
  | duplicateDefault
  | defaultNotLast
  | defaultCondition
  /-- A whole number as a case after a range. -/
  | numberAfterRange
  | nestedFunction
  | strayBreak
  /-- An assignment to a constant, which has a name unless it is written out. -/
  | constantTarget (name : Option String)
  | badTarget
  | tooComplex
  deriving DecidableEq, Repr, Inhabited

/-- A parse fault with its place in the body. -/
structure ParseFault where
  cause : ParseCause
  place : Place
  deriving DecidableEq, Repr, Inhabited

/-- The wording of a fault. -/
def ParseCause.message : ParseCause → String
  | .lex fault => fault.message
  | .incomplete => "Script is incomplete"
  | .unknownOperator symbol => s!"Unknown operator: '{symbol}'"
  | .missing token why => s!"Expecting '{token}' {why}"
  | .expressionExpected what => s!"Expecting {what} expression"
  | .mismatch expected found => s!"Expecting {expected}, not {found}"
  | .variableExpected => "Expecting name of a variable"
  | .propertyExpected => "Expecting name of a property"
  | .reserved word =>
    if isName word then s!"'{word}' is a reserved keyword" else s!"'{word}' is a reserved symbol"
  | .duplicateProperty name => s!"Duplicated property for object map literal: {name}"
  | .functionName => "Expecting function name in function declaration"
  | .functionParams f => s!"Expecting parameters for function {f}"
  | .functionBody f => s!"Expecting body statement block for function {f}"
  | .duplicateParam f param => s!"Duplicated parameter {param} for function {f}"
  | .duplicateFunction f 0 => s!"Function {f} with no parameters already exists"
  | .duplicateFunction f 1 => s!"Function {f} with 1 parameter already exists"
  | .duplicateFunction f arity => s!"Function {f} with {arity} parameters already exists"
  | .duplicateVariable name => s!"Duplicated variable name: {name}"
  | .duplicateDefault => "Duplicated switch case"
  | .defaultNotLast => "Default switch case must be the last"
  | .defaultCondition => "This switch case cannot have a condition"
  | .numberAfterRange => "Numeric switch case cannot follow a range case"
  | .nestedFunction =>
    "Function definitions must be at global level and cannot be inside a block or another function"
  | .strayBreak => "Break statement should only be used inside a loop"
  | .constantTarget none => "Cannot assign to a constant value"
  | .constantTarget (some name) => s!"Cannot assign to constant {name}"
  | .badTarget => "Expression cannot be assigned to"
  | .tooComplex => "Expression exceeds maximum complexity"

end HotReload.Body
