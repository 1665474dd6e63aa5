import HotReload.Body.Value

/-! # Faults of running bodies

Why a body or a function of one stopped, and where. A fault inside a called function carries one more line for
each call on the way.
-/

namespace HotReload.Body

/-! ## Section 1 - faults -/

/-- Whole-number arithmetic without a result. -/
inductive ArithmeticFault where
  | addition (a b : Int)
  | subtraction (a b : Int)
  | multiplication (a b : Int)
  | divisionByZero (a b : Int)
  | division (a b : Int)
  | remainder (a b : Int)
  | negation (a : Int)
  | power (a b : Int)
  | negativePower (a b : Int)
  deriving DecidableEq, Repr, Inhabited

/-- The wording of a fault. -/
def ArithmeticFault.message : ArithmeticFault → String
  | .addition a b => s!"Addition overflow: {a} + {b}"
  | .subtraction a b => s!"Subtraction overflow: {a} - {b}"
  | .multiplication a b => s!"Multiplication overflow: {a} * {b}"
  | .divisionByZero a b => s!"Division by zero: {a} / {b}"
  | .division a b => s!"Division overflow: {a} / {b}"
  | .remainder a b => s!"Modulo division by zero or overflow: {a} % {b}"
  | .negation a => s!"Negation overflow: -{a}"
  | .power a b => s!"Exponential overflow: {a} ** {b}"
  | .negativePower a b => s!"Integer raised to a negative power: {a} ** {b}"

/-- Why running stopped. -/
inductive Cause where
  | arithmetic (fault : ArithmeticFault)
  | variableNotFound (name : String)
  /-- No function has this name and these argument types. -/
  | functionNotFound (name : String) (types : List String)
  | arrayBounds (size : Nat) (index : Int)
  | stringBounds (size : Nat) (index : Int)
  /-- A value that was thrown. -/
  | thrown (value : Value)
  /-- The text with which a function of a host module refused. -/
  | refused (text : String)
  | selfUnbound
  | mismatch (found expected : String)
  | noProperty (name type access : String)
  | noIndex (type index : String)
  | notIterable
  | constant (name : String)
  | stackOverflow
  /-- The run used up its measure. There is no such fault in the language, where such a run goes on. -/
  | exhausted
  deriving Inhabited

/-- A fault with its place, inside the calls that led to it. -/
inductive Fault where
  | raised (cause : Cause) (place : Place)
  /-- A fault inside a function, with the place of the call. -/
  | inCall (inner : Fault) (function : String) (place : Place)
  deriving Inhabited

/-- A count with the words after it that the count calls for. -/
def outOfBounds (what container element : String) (size : Nat) (index : Int) : String :=
  match size with
  | 0 => s!"{what} index {index} out of bounds: {container} is empty"
  | 1 => s!"{what} index {index} out of bounds: only 1 {element} in {container}"
  | n => s!"{what} index {index} out of bounds: only {n} {element}s in {container}"

/-- A property that the values of a type do not have. -/
def unknownProperty (name type access : String) : String :=
  s!"Unknown property '{name}' - a {access} is not registered for type '{type}'"

/-- An index into the values of a type. -/
def indexing (type index : String) : String := s!"{type} [{index}]"

/-- A function and the types of its arguments. -/
def signature (name : String) (types : List String) : String := s!"{name} ({Value.commas types})"

/-- The wording of a cause, without its place. -/
def Cause.message : Cause → String
  | .arithmetic fault => fault.message
  | .variableNotFound name => s!"Variable not found: {name}"
  | .functionNotFound name types => s!"Function not found: {signature name types}"
  | .arrayBounds size index => outOfBounds "Array" "array" "element" size index
  | .stringBounds size index => outOfBounds "String" "string" "character" size index
  | .thrown .unit | .thrown (.string "") => "Runtime error"
  | .thrown value => s!"Runtime error: {value.display}"
  | .refused "" => "Runtime error"
  | .refused text => s!"Runtime error: {text}"
  | .selfUnbound => "'this' not bound"
  | .mismatch found expected => s!"Data type incorrect: {found} (expecting {expected})"
  | .noProperty name type access => unknownProperty name type access
  | .noIndex type index => s!"Indexer unavailable: {indexing type index}"
  | .notIterable => "For loop expects iterable type"
  | .constant name => s!"Cannot modify constant: {name}"
  | .stackOverflow => "Stack overflow"
  | .exhausted => "Script terminated"

/-- The name of a cause and its data, as the handler of a fault sees them. -/
def Cause.details : Cause → String × List (String × Value)
  | .arithmetic _ => ("ErrorArithmetic", [])
  | .variableNotFound name => ("ErrorVariableNotFound", [("variable", .string name)])
  | .functionNotFound name types => ("ErrorFunctionNotFound", [("function", .string (signature name types))])
  | .arrayBounds size index => ("ErrorArrayBounds", [("length", .int size), ("index", .int index)])
  | .stringBounds size index => ("ErrorStringBounds", [("length", .int size), ("index", .int index)])
  | .thrown _ | .refused _ => ("ErrorRuntime", [])
  | .selfUnbound => ("ErrorUnboundThis", [])
  | .mismatch found expected => ("ErrorMismatchDataType", [("requested", .string expected), ("actual", .string found)])
  | .noProperty name type access => ("ErrorDotExpr", [("property", .string (unknownProperty name type access))])
  | .noIndex type index => ("ErrorIndexingType", [("type", .string (indexing type index))])
  | .notIterable => ("ErrorFor", [])
  | .constant name => ("ErrorAssignmentToConstant", [("variable", .string name)])
  | .stackOverflow => ("ErrorStackOverflow", [])
  | .exhausted => ("ErrorTerminated", [])

/-- A place, as it stands in messages. -/
def positionText (p : Place) : String := s!"(line {p.line}, position {p.column})"

namespace Fault

/-- The place of a fault, which for one inside a function is the place of the call. -/
def place : Fault → Place
  | raised _ place | inCall _ _ place => place

/-- The fault told at another place. -/
def moved (fault : Fault) (place : Place) : Fault :=
  match fault with
  | raised cause _ => raised cause place
  | inCall inner function _ => inCall inner function place

/-- The wording of a fault, one line for the cause and one for each call. -/
def message : Fault → String
  | raised cause place => s!"{cause.message} {positionText place}"
  | inCall inner function place => s!"{inner.message}\nin call to function '{function}' {positionText place}"

/-- The wording of a fault without its own place. -/
def unplaced : Fault → String
  | raised cause _ => cause.message
  | inCall inner function _ => s!"{inner.message}\nin call to function '{function}'"

/-- Whether a fault is the lack of a function at the outermost level. -/
def isMissingFunction : Fault → Bool
  | raised (.functionNotFound _ _) _ => true
  | _ => false

@[simp] theorem isMissingFunction_inCall (f : Fault) (name : String) (p : Place) :
    (inCall f name p).isMissingFunction = false := rfl

/-! ## Section 2 - faults that are caught -/

/-- Whether a body can catch a fault. It cannot catch the ones that end a run for its size. -/
def isCatchable : Fault → Bool
  | raised .stackOverflow _ | raised .exhausted _ => false
  | _ => true

/-- The cause of a fault, inside all calls. -/
def cause : Fault → Cause
  | raised cause _ => cause
  | inCall inner _ _ => inner.cause

/-- What the handler of a fault sees: the value that was thrown, or a map that describes the fault. -/
def caught (fault : Fault) : Value :=
  match fault.cause with
  | .thrown value => value
  | .refused text => .string text
  | _ =>
    let kind : String × List (String × Value) :=
      match fault with
      | raised cause _ => cause.details
      | inCall _ function _ => ("ErrorInFunctionCall", [("function", .string function), ("source", .string "")])
    .mapOf ([("message", .string fault.unplaced), ("line", .int fault.place.line),
      ("position", .int fault.place.column), ("error", .string kind.1)] ++ kind.2)

end Fault

end HotReload.Body
