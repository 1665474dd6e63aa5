import HotReload.Body.Fault
import HotReload.Body.Grammar
import HotReload.Types.Module

/-! # Running bodies

The meaning of programs, as an evaluator over a machine state. A run ends with a value or leaves early: by a
fault, by a return, or out of a loop. The state survives in every case, so that what a
function did to its instance before a fault stays done.

`perform` does one task and hands the tasks inside it to `recurse`; `run` ties the knot with a measure
that goes down with each level and each round of a loop. The language itself sets no such bound: a hook that never
returns is a tick that never ends. Here it ends with a fault of its own, `exhausted`, which nothing in a body can
catch. Any other end of a run is the one that it has under every larger measure (`run_eq_of_le`).
-/

namespace HotReload.Body

/-! ## Section 1 - machine -/

/-- A variable in scope. -/
structure Binding where
  name : String
  constant : Bool
  value : Value
  deriving Inhabited

/-- The state of a run. -/
structure Machine where
  /-- The variables in scope, innermost first. -/
  scope : List Binding := []
  /-- The instance that the running function works on. -/
  self : Option Value := none
  /-- The calls that are under way. -/
  depth : Nat := 0
  /-- The lines that host functions printed. -/
  printed : List String := []
  deriving Inhabited

/-- How a run may leave before its end. -/
inductive Exit where
  | fault (f : Fault)
  /-- A return, with its value. -/
  | yielded (v : Value)
  /-- Out of the loop, with its value. -/
  | left (v : Value)
  /-- To the next round of the loop. -/
  | again
  deriving Inhabited

/-- A run from a state, which ends in a state however it ends. -/
abbrev Eval := ExceptT Exit (StateM Machine)

/-- What a run refers to. -/
structure Setup where
  engine : Engine
  program : Program

/-- How many calls may be under way at once. -/
def maxDepth : Nat := 64

/-- Raises a fault. -/
def raise {α : Type} (cause : Cause) (place : Place) : Eval α := throw (.fault (.raised cause place))

/-- Raises the fault of a failed operation. -/
def settle {α : Type} (place : Place) : Except Cause α → Eval α
  | .ok a => pure a
  | .error cause => raise cause place

/-- Runs with the variables that it declares going out of scope at its end. -/
def inBlock {α : Type} (x : Eval α) : Eval α := fun m =>
  let (r, m') := x.run m
  (r, { m' with scope := m'.scope.drop (m'.scope.length - m.scope.length) })

/-- Brings a variable into scope. -/
def bind (name : String) (constant : Bool) (value : Value) : Eval Unit :=
  modify fun m => { m with scope := ⟨name, constant, value⟩ :: m.scope }

/-- Brings a variable into scope if there is a name for it. -/
def bindNamed : Option String → Value → Eval Unit
  | some name, value => bind name false value
  | none, _ => pure ()

/-- Sets the innermost variable of a name. -/
def setIn (name : String) (value : Value) : List Binding → List Binding
  | [] => []
  | b :: bs => if b.name = name then { b with value := value } :: bs else b :: setIn name value bs

/-- The innermost variable of a name. -/
def lookupIn (name : String) (scope : List Binding) : Option Binding :=
  scope.find? fun b => b.name = name

/-! ## Section 2 - operators -/

/-- A whole number if it is one of the language, else the fault. -/
def checked (n : Int) (fault : ArithmeticFault) : Except Cause Value :=
  if Lexer.fits n then .ok (.int n) else .error (.arithmetic fault)

/-- The remainder of a division of floats that truncates, with the sign of the dividend. -/
def floatRem (x y : Float) : Float :=
  match Binary.ofFloat? x, Binary.ofFloat? y with
  | some a, some b =>
    if b.mantissa = 0 then 0.0 / 0.0
    else
      -- both are whole multiples of one power of two, so the remainder is exact
      let q := min a.power b.power
      let m := a.mantissa * Nat.pow 2 (a.power - q).natAbs
      let n := b.mantissa * Nat.pow 2 (b.power - q).natAbs
      let r := (Float.ofNat (m % n)).scaleB q
      if a.negative then -r else r
  | some _, none => if y == y then x else y
  | none, _ => 0.0 / 0.0

/-- A power of whole numbers. -/
def intPower (a b : Int) : Except Cause Value :=
  if b < 0 then .error (.arithmetic (.negativePower a b))
  else if 4294967295 < b then .error (.arithmetic (.power a b))
  -- of a number that cannot grow only the parity of the exponent counts
  else if a.natAbs ≤ 1 then .ok (.int (if b = 0 then 1 else Int.pow a (2 - b % 2).toNat))
  else if b < 64 then checked (Int.pow a b.toNat) (.power a b)
  else .error (.arithmetic (.power a b))

/-- A whole number as the bits in which it is kept. -/
def bits (n : Int) : BitVec 64 := BitVec.ofInt 64 n

/-- A whole number with its bits moved up, and down for a negative count. What is moved out is lost. -/
def shift (a count : Int) : Int :=
  if 0 ≤ count then if count < 64 then (bits a <<< count.toNat).toInt else 0
  else ((bits a).sshiftRight (min count.natAbs 64)).toInt

/-- Arithmetic on whole numbers. -/
def intArith (op : BinaryOp) (a b : Int) : Option (Except Cause Value) :=
  match op with
  | .add => some (checked (a + b) (.addition a b))
  | .sub => some (checked (a - b) (.subtraction a b))
  | .mul => some (checked (a * b) (.multiplication a b))
  | .div =>
    some (if b = 0 then .error (.arithmetic (.divisionByZero a b)) else checked (a.tdiv b) (.division a b))
  | .rem =>
    -- the least number is refused -1 as a divisor, because its quotient is no number of the language
    some
      (if b = 0 ∨ (b = -1 ∧ a = Lexer.minInt) then .error (.arithmetic (.remainder a b))
       else .ok (.int (a.tmod b)))
  | .power => some (intPower a b)
  | .bitAnd => some (.ok (.int (bits a &&& bits b).toInt))
  | .bitOr => some (.ok (.int (bits a ||| bits b).toInt))
  | .bitXor => some (.ok (.int (bits a ^^^ bits b).toInt))
  | .shiftLeft => some (.ok (.int (shift a b)))
  | .shiftRight => some (.ok (.int (shift a (-b))))
  | _ => none

/-- The operators on truth values that evaluate both sides. -/
def boolArith (op : BinaryOp) (a b : Bool) : Option Value :=
  match op with
  | .bitAnd => some (.bool (a && b))
  | .bitOr => some (.bool (a || b))
  | .bitXor => some (.bool (a != b))
  | _ => none

/-- Arithmetic on floats. -/
def floatArith (op : BinaryOp) (x y : Float) : Option Value :=
  match op with
  | .add => some (.float (x + y))
  | .sub => some (.float (x - y))
  | .mul => some (.float (x * y))
  | .div => some (.float (x / y))
  | .rem => some (.float (floatRem x y))
  | .power => some (.float (x.pow y))
  | _ => none

/-- The answer of an operator of order, from the two relations that decide it. -/
def ordered (op : BinaryOp) (less equal : Bool) : Option Bool :=
  match op with
  | .lt => some less
  | .le => some (less || equal)
  | .gt => some (!(less || equal))
  | .ge => some (!less)
  | _ => none

/-- The answer of an operator of order on floats, which is false where one of them is no number. -/
def orderedFloats (op : BinaryOp) (x y : Float) : Option Bool :=
  match op with
  | .lt => some (x < y)
  | .le => some (x ≤ y)
  | .gt => some (x > y)
  | .ge => some (x ≥ y)
  | _ => none

/-- The order of two values. Values of different kinds are in no order, so that each question has the answer no. -/
def order (op : BinaryOp) (a b : Value) : Option Bool :=
  match a, b with
  | .int x, .int y => ordered op (x < y) (x = y)
  | .string x, .string y => ordered op (x < y) (x = y)
  | .char x, .char y => ordered op (x < y) (x = y)
  | .char x, .string y => ordered op (String.singleton x < y) (String.singleton x = y)
  | .string x, .char y => ordered op (x < String.singleton y) (x = String.singleton y)
  | .bool x, .bool y => ordered op (!x && y) (x = y)
  | .unit, .unit => ordered op false true
  | a, b =>
    match a.toFloat?, b.toFloat? with
    | some x, some y => orderedFloats op x y
    -- values of one kind that come this far have no such operator at all
    | _, _ => if a.kind = b.kind then none else (ordered op false false).map fun _ => false

/-- The value of an operator between two operands. -/
def applyBinary (op : BinaryOp) (a b : Value) : Except Cause Value :=
  let missing : Except Cause Value := .error (.functionNotFound op.symbol [a.typeName, b.typeName])
  match op with
  | .eq => .ok (.bool (Value.same a b))
  | .ne => .ok (.bool (!Value.same a b))
  | .range =>
    match a, b with
    | .int x, .int y => .ok (.range x y false)
    | _, _ => missing
  | .rangeInclusive =>
    match a, b with
    | .int x, .int y => .ok (.range x y true)
    | _, _ => missing
  | .lt | .le | .gt | .ge =>
    match order op a b with
    | some answer => .ok (.bool answer)
    | none => missing
  | .add | .sub | .mul | .div | .rem | .power | .bitAnd | .bitOr | .bitXor | .shiftLeft | .shiftRight =>
    match a, b with
    | .int x, .int y => (intArith op x y).getD missing
    | .bool x, .bool y => (boolArith op x y).elim missing .ok
    | .array xs, .array ys => if op = .add then .ok (.array (xs ++ ys)) else missing
    | .char x, .char y => if op = .add then .ok (.string (String.ofList [x, y])) else missing
    | a, b =>
      match a.toFloat?, b.toFloat? with
      | some x, some y => (floatArith op x y).elim missing .ok
      | _, _ =>
        -- a string takes in whatever it is added to
        match op, a, b with
        | .add, .string x, y => .ok (.string (x ++ y.display))
        | .add, x, .string y => .ok (.string (x.display ++ y))
        | _, _, _ => missing

/-- The value of an operator before an operand. -/
def applyUnary (op : UnaryOp) (a : Value) : Except Cause Value :=
  match op, a with
  | .not, .bool b => .ok (.bool !b)
  | .minus, .int n => checked (-n) (.negation n)
  | .minus, .float x => .ok (.float (-x))
  | .plus, .int n => .ok (.int n)
  | .plus, .float x => .ok (.float x)
  | op, a => .error (.functionNotFound op.symbol [a.typeName])

/-- What an assignment leaves, from what was there and the value assigned. -/
def assigned (op : Option BinaryOp) (old new : Value) : Except Cause Value :=
  match op, old, new with
  | none, _, _ => .ok new
  | some .add, .array xs, .array ys => .ok (.array (xs ++ ys))
  | some .add, .array xs, y => .ok (.array (xs ++ [y]))
  | some op, old, new => applyBinary op old new

/-! ## Section 3 - parts of values -/

/-- The position that an index names, counted from the end if it is negative. -/
def position? (size : Nat) (index : Int) : Option Nat :=
  if 0 ≤ index then if index.toNat < size then some index.toNat else none
  else if index.natAbs ≤ size then some (size - index.natAbs) else none

/-- A property of a value other than a map. -/
def property? (name : String) : Value → Option Value
  | .string s => if name = "len" then some (.int s.length) else none
  | .array xs => if name = "len" then some (.int xs.length) else none
  | .typeRef r =>
    if name = "name" then some (.string r.type.name)
    else if name = "assembly" then some (.int r.assembly.id)
    else none
  | _ => none

/-- The part of a value at an index. -/
def part (container index : Value) : Except Cause Value :=
  match container, index with
  | .array xs, .int i =>
    match position? xs.length i with
    | some n => .ok (xs.getD n .unit)
    | none => .error (.arrayBounds xs.length i)
  | .array _, i => .error (.mismatch i.typeName "i64")
  | .map es, .string k => .ok (Value.entry es k)
  | .map _, i => .error (.mismatch i.typeName "&str | ImmutableString | String")
  | .string s, .int i =>
    match position? s.length i with
    | some n => .ok (.char (s.toList.getD n ' '))
    | none => .error (.stringBounds s.length i)
  | .string _, i => .error (.mismatch i.typeName "i64")
  | c, i => .error (.noIndex c.typeName i.typeName)

/-- A list or a string with the part at an index replaced. Where it has no such part, it stays. -/
def withPart (container index new : Value) : Value :=
  match container, index with
  | .array xs, .int i =>
    match position? xs.length i with
    | some n => .array (xs.set n new)
    | none => container
  | .string s, .int i =>
    match position? s.length i, new with
    | some n, .char c => .string (String.ofList (s.toList.set n c))
    | _, _ => container
  | _, _ => container

/-- Whether some characters stand together among others. -/
def holdsRun (run : List Char) : List Char → Bool
  | [] => run.isEmpty
  | c :: cs => run.isPrefixOf (c :: cs) || holdsRun run cs

/-- Whether a range holds a whole number. -/
def inRange (first last : Int) (inclusive : Bool) (n : Int) : Bool :=
  first ≤ n && (if inclusive then n ≤ last else n < last)

/-- Whether a value holds another one: a list an item, a map a key, a string a part, and a range a number. -/
def holds? (container part : Value) : Option Bool :=
  match container, part with
  | .array xs, v => some (xs.any fun x => Value.same x v)
  | .map es, .string key => some (es.lookup key).isSome
  | .string s, .string t => some (holdsRun t.toList s.toList)
  | .string s, .char c => some (s.toList.contains c)
  | .range first last inclusive, .int n => some (inRange first last inclusive n)
  | _, _ => none

/-- A function of the language itself. It gets the value it is called on or its first argument, and
returns what becomes of that value and its own value. -/
def builtin? (name : String) (target : Value) (args : List Value) : Option (Value × Value) :=
  match name, target, args with
  | "len", .map es, [] => some (target, .int es.length)
  | "len", _, [] => (property? "len" target).map fun v => (target, v)
  | "push", .array xs, [v] => some (.array (xs ++ [v]), .unit)
  | "contains", _, [v] => (holds? target v).map fun b => (target, .bool b)
  | _, _, _ => none

/-! ## Section 4 - steps -/

/-- A task of the evaluator. -/
inductive Task where
  | expr (e : Expr)
  /-- Statements in the scope at hand. Their value is that of the last one. -/
  | statements (body : List Stmt)
  | loop (condition : Option Expr) (body : List Stmt)
  /-- A loop that goes on while its condition, asked after each round, has this answer. -/
  | repetition (body : List Stmt) (condition : Expr) (answer : Bool)
  /-- The rounds of a loop over items, one for each value, and the number of those done. -/
  | rounds (name : String) (counter : Option String) (done : Nat) (items : List Value) (body : List Stmt)
  deriving Inhabited

/-- A step into a value, with what it needs evaluated. -/
inductive ReadyStep where
  | field (place : Place) (name : String)
  | method (place : Place) (name : String) (args : List Value)
  | index (place : Place) (index : Value)
  | guard
  deriving Inhabited

/-- What happens where a chain of steps ends: reading, or an assignment at a place. -/
inductive Ending where
  | read
  | write (op : Option BinaryOp) (value : Value) (place : Place)
  deriving Inhabited

variable (setup : Setup) (recurse : Task → Eval Value)

/-- Runs a function of the program on an instance, and returns its value with what becomes of the instance.
A fault inside it gets the line of the call, unless the caller is the host. -/
def callFunction (f : Function) (args : List Value) (self : Option Value)
    (site : Option Place) : Machine → (Except Exit Value × Option Value) × Machine := fun m =>
  if m.depth ≥ maxDepth then
    ((.error (.fault (.raised .stackOverflow (site.getD .start))), self), m)
  else
    -- the scope is that of the parameters alone: the caller's variables are out of sight
    let frame : Machine :=
      { scope := ((f.params.zip args).map fun (n, v) => ⟨n, false, v⟩).reverse, self := self,
        depth := m.depth + 1, printed := m.printed }
    let (r, after) := (recurse (.statements f.body)).run frame
    let r := match r, site with
      | .error (.yielded v), _ => .ok v
      | .error (.fault fault), some place =>
        -- a fault that nothing catches goes through all calls as it is
        .error (.fault (if fault.isCatchable then .inCall fault f.name place else fault.moved place))
      | r, _ => r
    ((r, after.self), { m with printed := after.printed })

/-- Calls a function of a host module. -/
def callHost (f : HostFunction) (args : List Value) (place : Place) : Eval Value := do
  let reply := f.run args
  modify fun m => { m with printed := m.printed ++ reply.printed }
  settle place (reply.result.mapError .refused)

/-- Calls a function by its name. Functions of the program come before those of host modules. -/
def callNamed (place : Place) (name : String) (args : List Value) : Eval Value := do
  match setup.program.function? name args.length with
  | some f =>
    let ((r, _), m) := callFunction recurse f args none (some place) (← get)
    set m
    liftExcept r
  | none =>
    match setup.engine.function? name (args.map Value.kind) with
    | some f => callHost f args place
    | none =>
      match args with
      | target :: more =>
        match builtin? name target more with
        | some (_, v) => return v
        | none => raise (.functionNotFound name (args.map Value.typeName)) place
      | [] => raise (.functionNotFound name []) place
where
  /-- Leaves a run as a call left it. -/
  liftExcept : Except Exit Value → Eval Value
    | .ok v => pure v
    | .error e => throw e

/-- A map after a walk through one of its entries. An entry that was not there comes into being by an
assignment to it, and stays even if the operator of the assignment fails. -/
def afterEntry (es : List (String × Value)) (name : String) (last : Bool) (ending : Ending)
    (child : Value) : Value :=
  let assigned := last && (ending matches .write ..)
  if (es.lookup name).isSome || assigned then .map (Value.insert name child es) else .map es

/-- Walks into a value and returns what the walk found with what becomes of the value. -/
def walk (ending : Ending) :
    List ReadyStep → Value → Machine → (Except Exit Value × Value) × Machine
  | [], target, m =>
    match ending with
    | .read => ((.ok target, target), m)
    | .write op value place =>
      match assigned op target value with
      | .ok new => ((.ok .unit, new), m)
      | .error cause => ((fault cause place, target), m)
  | .field place name :: more, target, m =>
    match target with
    | .map es =>
      let ((r, child), m) := walk ending more (Value.entry es name) m
      ((r, afterEntry es name more.isEmpty ending child), m)
    | _ =>
      -- a property is a copy, so what becomes of it is not kept
      match property? name target with
      | some v =>
        let ((r, _), m) := walk ending more v m
        ((r, target), m)
      | none =>
        let access := if more.isEmpty && ending matches .write .. then "setter" else "getter"
        ((fault (.noProperty name target.typeName access) place, target), m)
  | .index place index :: more, target, m =>
    match part target index with
    | .error cause => ((fault cause place, target), m)
    | .ok v =>
      let ((r, child), m) := walk ending more v m
      match target, index with
      | .map es, .string name => ((r, afterEntry es name more.isEmpty ending child), m)
      | _, _ => ((r, withPart target index child), m)
  | .guard :: more, target, m =>
    match target with
    | .unit => ((.ok .unit, target), m)
    | _ => walk ending more target m
  | .method place name args :: more, target, m =>
    let ((r, target), m) := method place name args target m
    match r with
    | .error e => ((.error e, target), m)
    | .ok v =>
      let ((r, _), m) := walk ending more v m
      ((r, target), m)
where
  /-- A run that ends with a fault. -/
  fault (cause : Cause) (place : Place) : Except Exit Value := .error (.fault (.raised cause place))
  /-- Calls a method on a value. -/
  method (place : Place) (name : String) (args : List Value) (target : Value) (m : Machine) :
      (Except Exit Value × Value) × Machine :=
    match setup.program.function? name args.length with
    | some f =>
      let ((r, self), m) := callFunction recurse f args (some target) (some place) m
      ((r, self.getD target), m)
    | none =>
      match setup.engine.function? name ((target :: args).map Value.kind) with
      | some f =>
        let (r, m) := (callHost f (target :: args) place).run m
        ((r, target), m)
      | none =>
        match builtin? name target args with
        | some (target, v) => ((.ok v, target), m)
        | none =>
          ((fault (.functionNotFound name ((target :: args).map Value.typeName)) place, target), m)

/-- Evaluates what the steps of a chain need, in order. -/
def ready : Step → Eval ReadyStep
  | .field place name => return .field place name
  | .method place name args => return .method place name (← args.mapM fun a => recurse (.expr a))
  | .index _ index => return .index index.start (← recurse (.expr index))
  | .guard => return .guard

/-- Walks a chain from its root. A variable or the instance keeps what the walk makes of it. -/
def chain (ending : Ending) (root : Expr) (steps : List Step) : Eval Value := do
  -- what the steps need comes first, and may itself change the root
  let steps ← steps.mapM (ready recurse)
  match root with
  | .variable place name =>
    match lookupIn name (← get).scope with
    | none => raise (.variableNotFound name) place
    | some b =>
      if b.constant ∧ (ending matches .write ..) then raise (.constant name) place
      else
        let ((r, v), m) := walk setup recurse ending steps b.value (← get)
        set { m with scope := setIn name v m.scope }
        callNamed.liftExcept r
  | .self place =>
    match (← get).self with
    | none => raise .selfUnbound place
    | some self =>
      let ((r, v), m) := walk setup recurse ending steps self (← get)
      set { m with self := some v }
      callNamed.liftExcept r
  | e =>
    let v ← recurse (.expr e)
    let ((r, _), m) := walk setup recurse ending steps v (← get)
    set m
    callNamed.liftExcept r

/-! ## Section 5 - expressions and statements -/

/-- A condition's answer. -/
def truth (e : Expr) : Eval Bool := do
  match ← recurse (.expr e) with
  | .bool b => return b
  | v => raise (.mismatch v.typeName "bool") e.start

/-- Whether a loop goes on to another round. A loop without a condition does. -/
def goesOn : Option Expr → Eval Bool
  | some condition => truth recurse condition
  | none => pure true

/-- Evaluates an expression. -/
def evalExpr : Expr → Eval Value
  | .literal _ v => return .ofLiteral v
  | .text _ parts => return .string (String.join ((← parts.mapM fun e => recurse (.expr e)).map Value.display))
  | .array _ items => return .array (← items.mapM fun e => recurse (.expr e))
  | .map _ entries => return Value.mapOf (← entries.mapM fun (k, e) => return (k, ← recurse (.expr e)))
  | .variable place name => do
    match lookupIn name (← get).scope with
    | some b => return b.value
    | none => raise (.variableNotFound name) place
  | .self place => do
    match (← get).self with
    | some v => return v
    | none => raise .selfUnbound place
  | .unary place op e => do settle place (applyUnary op (← recurse (.expr e)))
  | .binary place op left right => do
    let a ← recurse (.expr left)
    let b ← recurse (.expr right)
    settle place (applyBinary op a b)
  | .both _ left right => do
    if ← truth recurse left then return .bool (← truth recurse right) else return .bool false
  | .either _ left right => do
    if ← truth recurse left then return .bool true else return .bool (← truth recurse right)
  | .coalesce _ left right => do
    match ← recurse (.expr left) with
    | .unit => recurse (.expr right)
    | v => return v
  | .call place name args => do
    callNamed setup recurse place name (← args.mapM fun e => recurse (.expr e))
  | .chain root steps => chain setup recurse .read root steps
  | .block _ body => inBlock (recurse (.statements body))

/-- The items of a value that a loop goes through. -/
def itemsOf? : Value → Option (List Value)
  | .array items => some items
  | .range first last inclusive =>
    let count := (if inclusive then last - first + 1 else last - first).toNat
    some ((List.range count).map fun (n : Nat) => .int (first + (n : Int)))
  | _ => none

/-- Whether a value is the one of a case, which is of its kind. -/
def isCase (v pattern : Value) : Bool := v.kind = pattern.kind && Value.same v pattern

/-- Whether a number lies in the range of a case. -/
def inCaseRange (v pattern : Value) : Bool :=
  match pattern, v with
  | .range first last inclusive, .int n => inRange first last inclusive n
  | .range first last inclusive, .float x =>
    Float.ofInt first ≤ x && (if inclusive then x ≤ Float.ofInt last else x < Float.ofInt last)
  | _, _ => false

/-- What the first arm does whose condition is fulfilled, else what is done otherwise. -/
def firstOpen (otherwise : List Stmt) : List Arm → Eval (List Stmt)
  | [] => return otherwise
  | arm :: arms => do
    let fulfilled ← match arm.condition with
      | some e => truth recurse e
      | none => pure true
    if fulfilled then return arm.action else firstOpen otherwise arms

/-- What a choice does for a value. Ranges count only where no arm names the value, whatever the condition of such an
arm says. -/
def chosen (v : Value) (arms : List Arm) (otherwise : List Stmt) : Eval (List Stmt) := do
  let ready ← arms.mapM fun arm => return (arm, ← arm.cases.mapM fun e => recurse (.expr e))
  let fitting (fits : Value → Value → Bool) : List Arm :=
    (ready.filter fun (_, cases) => cases.any (fits v)).map Prod.fst
  let exact := fitting isCase
  firstOpen recurse otherwise (if exact.isEmpty then fitting inCaseRange else exact)

/-- Runs statements after a fault, which they may name. Throwing nothing in them raises that fault again. -/
def rescued (fault : Fault) (name : Option String) (rescue : List Stmt) : Eval Value :=
  tryCatch
    (do
      let _ ← inBlock do
        bindNamed name fault.caught
        recurse (.statements rescue)
      return .unit)
    fun
      | .fault (.raised (.thrown .unit) place) => throw (.fault (fault.moved place))
      | e => throw e

/-- Runs a statement. -/
def evalStmt : Stmt → Eval Value
  | .expr e => recurse (.expr e)
  | .declare _ constant name value => do
    let v ← match value with
      | some e => recurse (.expr e)
      | none => pure .unit
    bind name constant v
    return .unit
  | .assign place op target value => do
    let v ← recurse (.expr value)
    match target with
    | .self at_ =>
      match (← get).self with
      | none => raise .selfUnbound at_
      | some old =>
        let new ← settle place (assigned op old v)
        modify fun m => { m with self := some new }
        return .unit
    | .variable at_ name =>
      match lookupIn name (← get).scope with
      | none => raise (.variableNotFound name) at_
      | some b =>
        if b.constant then raise (.constant name) at_
        else
          let new ← settle place (assigned op b.value v)
          modify fun m => { m with scope := setIn name new m.scope }
          return .unit
    | .chain root steps => chain setup recurse (.write op v place) root steps
    -- the grammar has let no other target through
    | _ => return .unit
  | .branch _ condition yes no => do
    if ← truth recurse condition then inBlock (recurse (.statements yes))
    else inBlock (recurse (.statements no))
  | .loop _ condition body => recurse (.loop condition body)
  | .repetition _ body condition answer => recurse (.repetition body condition answer)
  | .each _ name counter items body => do
    match itemsOf? (← recurse (.expr items)) with
    | some vs => recurse (.rounds name counter 0 vs body)
    | none => raise .notIterable items.start
  | .choice _ subject arms otherwise => do
    inBlock (recurse (.statements (← chosen recurse (← recurse (.expr subject)) arms otherwise)))
  | .attempt _ body name rescue =>
    tryCatch (inBlock (recurse (.statements body))) fun
      | .fault fault => if fault.isCatchable then rescued recurse fault name rescue else throw (.fault fault)
      | e => throw e
  | .nested _ body => inBlock (recurse (.statements body))
  | .leave _ value => do
    match value with
    | some e => throw (.left (← recurse (.expr e)))
    | none => throw (.left .unit)
  | .again _ => throw .again
  | .yield _ value => do
    match value with
    | some e => throw (.yielded (← recurse (.expr e)))
    | none => throw (.yielded .unit)
  | .raise place value => do
    match value with
    | some e => raise (.thrown (← recurse (.expr e))) place
    | none => raise (.thrown .unit) place

/-- How a round of a loop ended. -/
inductive RoundEnd where
  | done
  /-- Cut short, for the next round. -/
  | skipped
  /-- The last one, with the value of the loop. -/
  | left (v : Value)

/-- Runs the body of a loop once. -/
def round (body : Eval Value) : Eval RoundEnd :=
  tryCatch (do let _ ← inBlock body; return .done) fun
    | .left v => return .left v
    | .again => return .skipped
    | e => throw e

/-- Does one task, with the tasks inside it done by `recurse`. -/
def perform : Task → Eval Value
  | .expr e => evalExpr setup recurse e
  | .statements [] => return .unit
  | .statements [s] => evalStmt setup recurse s
  | .statements (s :: more) => do
    let _ ← evalStmt setup recurse s
    recurse (.statements more)
  | .loop condition body => do
    if ← goesOn recurse condition then
      match ← round (recurse (.statements body)) with
      | .left v => return v
      | _ => recurse (.loop condition body)
    else return .unit
  | .repetition body condition answer => do
    match ← round (recurse (.statements body)) with
    | .left v => return v
    -- a round that is cut short goes over to the next one without a question
    | .skipped => recurse (.repetition body condition answer)
    | .done =>
      if (← truth recurse condition) = answer then recurse (.repetition body condition answer) else return .unit
  | .rounds _ _ _ [] _ => return .unit
  | .rounds name counter done (v :: vs) body => do
    let ending ← round do
      bindNamed counter (.int done)
      bind name false v
      recurse (.statements body)
    match ending with
    | .left v => return v
    | _ => recurse (.rounds name counter (done + 1) vs body)

/-- Does a task within a measure. -/
def run : Nat → Task → Eval Value
  | 0, _ => raise .exhausted .start
  | n + 1, task => perform setup (run n) task

/-- The measure of a run, from the start of a hook or of the statements of a body. A larger one changes only runs that
end as `exhausted`. -/
def runMeasure : Nat := 10000000

/-! ## Section 6 - programs -/

/-- How a run of a program ended. -/
structure Finished (α : Type) where
  result : Except Fault α
  /-- The lines that host functions printed on the way. -/
  printed : List String

/-- Runs the statements of a program from nothing, and returns the fields that they leave: the variables of the
outermost scope, of which the last one with a name counts. A return ends the statements. -/
def Program.instantiate (engine : Engine) (program : Program) : Finished Value :=
  let (r, m) := (run ⟨engine, program⟩ runMeasure (.statements program.statements)).run {}
  -- the scope is innermost first, and in a map the last entry of a name counts
  let fields := Value.mapOf (m.scope.reverse.map fun b => (b.name, b.value))
  match r with
  | .error (.fault f) => ⟨.error f, m.printed⟩
  | _ => ⟨.ok fields, m.printed⟩

/-- Calls a hook of a program on an instance. A hook is a function with its name that takes as many
arguments; the lack of one is a fault. Returns also what becomes of the instance. A hook that would go on beyond
the measure ends with the fault `exhausted` and keeps what it has done to the instance. -/
def Program.callHook (engine : Engine) (program : Program) (hook : String) (args : List Value)
    (self : Value) : Finished Value × Value :=
  match program.function? hook args.length with
  | none => (⟨.error (.raised (.functionNotFound hook (args.map Value.typeName)) .start), []⟩, self)
  | some f =>
    let ((r, after), m) := callFunction (run ⟨engine, program⟩ runMeasure) f args (some self) none {}
    let result := match r with
      | .ok v => .ok v
      | .error (.fault fault) => .error fault
      | .error _ => .ok .unit
    (⟨result, m.printed⟩, after.getD self)

/-- Evaluates a single expression. -/
def Expr.evaluate (engine : Engine) (e : Expr) : Finished Value :=
  let (r, m) := (run ⟨engine, .empty⟩ runMeasure (.expr e)).run {}
  match r with
  | .ok v => ⟨.ok v, m.printed⟩
  | .error (.fault f) => ⟨.error f, m.printed⟩
  | .error _ => ⟨.ok .unit, m.printed⟩

end HotReload.Body
