import HotReload.Body.Lexer
import HotReload.Body.ParseFault

/-! # From words to programs

The grammar of bodies, by recursive descent: each function reads one kind of phrase and stops at the first
word that cannot go on. The names that are in scope are kept while reading, because assigning to a constant
is a fault of the grammar.

Every function takes a measure that goes down with each call. `Program.parse` starts it at a multiple of
the number of words, which no body exhausts, since a chain of calls that reads no word is short: under a larger
measure every body is read the same (`Program.read_eq_of_le`). How deep phrases may lie in each other is a bound
of its own, `topDepth` or `functionDepth`.
-/

namespace HotReload.Body.Grammar

/-! ## Section 1 - reading words -/

/-- What has been read so far. -/
structure Progress where
  /-- The words to come. The last one is the end of the body. -/
  lexemes : List Lexeme
  /-- The names in scope, innermost first, each with whether it is constant. -/
  scope : List (String × Bool) := []
  functions : List Function := []
  deriving Inhabited

/-- A reader of phrases. -/
abbrev Parse := StateT Progress (Except ParseFault)

/-- How deep phrases may lie inside phrases at the top of a body. -/
def topDepth : Nat := 64

/-- How deep phrases may lie inside phrases in a function. -/
def functionDepth : Nat := 32

/-- Where a phrase stands. -/
structure Region where
  /-- At the top of the body, where functions may be declared. -/
  top : Bool := false
  inFunction : Bool := false
  inLoop : Bool := false
  /-- Where statements may stand as expressions. -/
  statements : Bool := true
  /-- Where a bar stands between the cases of an arm and is no operator. -/
  cases : Bool := false
  /-- How many phrases there are around the phrase. -/
  depth : Nat := 0
  /-- How many there may be. -/
  limit : Nat := topDepth
  deriving Inhabited

/-- The next word. -/
def peek : Parse Lexeme := do
  match (← get).lexemes with
  | lexeme :: _ => return lexeme
  | [] => return ⟨.eof, .start⟩

/-- Takes the next word. The end of the body stays. -/
def next : Parse Lexeme := do
  let lexeme ← peek
  modify fun s =>
    match s.lexemes with
    | _ :: more@(_ :: _) => { s with lexemes := more }
    | _ => s
  return lexeme

/-- Refuses a word. A word that is none is refused for what it is. -/
def refuse {α : Type} (lexeme : Lexeme) (cause : ParseCause) : Parse α :=
  match lexeme.token with
  | .bad fault => throw ⟨.lex fault, lexeme.place⟩
  | _ => throw ⟨cause, lexeme.place⟩

/-- Whether a word is the given sign. -/
def Token.isSign (token : Token) (s : String) : Bool :=
  match token with
  | .sign t => t = s
  | _ => false

/-- Takes the next word if it is the given sign. -/
def takeSign (s : String) : Parse Bool := do
  if Token.isSign (← peek).token s then
    let _ ← next
    return true
  else return false

/-- Whether a word is the end of the body. -/
def Token.isEnd : Token → Bool
  | .eof => true
  | _ => false

/-- Brings a name into scope. -/
def bringIn (name : String) (constant : Bool) : Parse Unit :=
  modify fun s => { s with scope := (name, constant) :: s.scope }

/-- Reads a phrase whose names go out of scope with it. -/
def withScope {α : Type} (p : Parse α) : Parse α := do
  let scope := (← get).scope
  let a ← p
  modify fun s => { s with scope := scope }
  return a

/-- The region of a phrase inside a phrase, which is refused if it lies too deep. -/
def deeper (r : Region) (place : Place) : Parse Region :=
  if r.depth < r.limit then return { r with depth := r.depth + 1 } else throw ⟨.tooComplex, place⟩

/-- A reader whose faults are told with another cause. -/
def retold {α : Type} (cause : ParseCause) (p : Parse α) : Parse α := fun s =>
  (p s).mapError fun fault => ⟨cause, fault.place⟩

/-- Reads the name of a variable. -/
def variableName : Parse (String × Place) := do
  let lexeme ← next
  match lexeme.token with
  | .name s => return (s, lexeme.place)
  | .reserved s => refuse lexeme (if isName s then .reserved s else .variableExpected)
  | _ => refuse lexeme .variableExpected

/-! ## Section 2 - operators -/

/-- How strongly an operator binds. Zero is for words that are none. -/
def strength : Token → Nat
  | .sign "||" | .sign "|" | .sign "^" => 30
  | .sign "&&" | .sign "&" => 60
  | .sign "==" | .sign "!=" => 90
  | .sign "in" | .sign "!in" => 110
  | .sign "<" | .sign "<=" | .sign ">" | .sign ">=" => 130
  | .sign "??" => 135
  | .sign ".." | .sign "..=" => 140
  | .sign "+" | .sign "-" => 150
  | .sign "*" | .sign "/" | .sign "%" => 180
  | .sign "**" => 190
  | .sign "<<" | .sign ">>" => 210
  | _ => 0

/-- What must be less than the strength of an operator behind the right operand for that one to take the operand
first. Powers bind to the right, so they give way to each other. -/
def strengthToPass (here : Nat) : Nat := if here = strength (.sign "**") then here - 1 else here

/-- The operator of a sign between operands. -/
def binaryOp? : Token → Option BinaryOp
  | .sign "==" => some .eq
  | .sign "!=" => some .ne
  | .sign "<" => some .lt
  | .sign "<=" => some .le
  | .sign ">" => some .gt
  | .sign ">=" => some .ge
  | .sign ".." => some .range
  | .sign "..=" => some .rangeInclusive
  | .sign "+" => some .add
  | .sign "-" => some .sub
  | .sign "*" => some .mul
  | .sign "/" => some .div
  | .sign "%" => some .rem
  | .sign "**" => some .power
  | .sign "&" => some .bitAnd
  | .sign "|" => some .bitOr
  | .sign "^" => some .bitXor
  | .sign "<<" => some .shiftLeft
  | .sign ">>" => some .shiftRight
  | _ => none

/-- The operator that an assignment applies, for a sign of assignment. -/
def assignOp? : Token → Option (Option BinaryOp)
  | .sign "=" => some none
  | .sign "+=" => some (some .add)
  | .sign "-=" => some (some .sub)
  | .sign "*=" => some (some .mul)
  | .sign "/=" => some (some .div)
  | .sign "%=" => some (some .rem)
  | .sign "**=" => some (some .power)
  | .sign "&=" => some (some .bitAnd)
  | .sign "|=" => some (some .bitOr)
  | .sign "^=" => some (some .bitXor)
  | .sign "<<=" => some (some .shiftLeft)
  | .sign ">>=" => some (some .shiftRight)
  | _ => none

/-- The strength of the word after an operand, where a reserved sign is no operator. -/
def strengthAfterOperand (r : Region) : Parse Nat := do
  let lexeme ← peek
  match lexeme.token with
  | .reserved s => if isName s then return 0 else refuse lexeme (.unknownOperator s)
  | token => return if r.cases && Token.isSign token "|" then 0 else strength token

/-- What a written-out value is called where another kind is due. -/
def kindName : Expr → Option String
  | .literal _ .unit => some "()"
  | .literal _ (.int _) => some "a number"
  | .literal _ (.float _) => some "a floating-point number"
  | .literal _ (.char _) => some "a character"
  | .literal _ (.string _) | .text _ _ => some "a string"
  | .array _ _ => some "an array"
  | .map _ _ => some "an object map"
  | _ => none

/-- Refuses an expression that cannot be true or false. -/
def ensureBool (e : Expr) : Parse Expr :=
  match kindName e with
  | some found => throw ⟨.mismatch "a boolean expression" found, e.start⟩
  | none => return e

/-- Refuses an expression that cannot be gone through. -/
def ensureIterable (e : Expr) : Parse Expr :=
  match e with
  | .array _ _ => return e
  | .literal place (.bool _) => throw ⟨.mismatch "an iterable value" "a boolean", place⟩
  | _ =>
    match kindName e with
    | some found => throw ⟨.mismatch "an iterable value" found, e.start⟩
    | none => return e

/-- Joins two operands. -/
def join (lexeme : Lexeme) (left right : Expr) : Parse Expr :=
  match lexeme.token with
  | .sign "||" => do
    let right ← ensureBool right
    return .either lexeme.place (← ensureBool left) right
  | .sign "&&" => do
    let right ← ensureBool right
    return .both lexeme.place (← ensureBool left) right
  | .sign "??" => return .coalesce lexeme.place left right
  -- what holds is asked of the right operand, at the place of the left one
  | .sign "in" => return .call left.start "contains" [right, left]
  | .sign "!in" => return .unary left.start .not (.call left.start "contains" [right, left])
  | token =>
    match binaryOp? token with
    | some op => return .binary lexeme.place op left right
    | none => refuse lexeme (.lex (.unexpected lexeme.token.spelling))

/-- The negation of an operand. A number that is written out is negated at once. -/
def negate (place : Place) : Expr → Expr
  | .literal _ (.int n) =>
    -- the least number has no opposite among the whole numbers
    if Lexer.fits (-n) then .literal place (.int (-n)) else .literal place (.float (-(Float.ofInt n)))
  | .literal p (.float x) => .literal p (.float (-x))
  | e => .unary place .minus e

/-- A place that an assignment may write to. -/
def checkTarget (target : Expr) : Parse Unit := do
  match target with
  | .self _ => return ()
  | .variable place name =>
    match (← get).scope.lookup name with
    | some true => throw ⟨.constantTarget (some name), place⟩
    | _ => return ()
  | .chain root steps =>
    match steps.findSome? methodPlace? with
    | some place => throw ⟨.badTarget, place⟩
    | none =>
      match root with
      | .variable _ _ | .self _ => return ()
      | _ => throw ⟨.badTarget, root.place⟩
  | .literal place _ => throw ⟨.constantTarget none, place⟩
  | .both place _ _ | .either place _ _ | .coalesce place _ _ =>
    throw ⟨.lex (.improper "Possibly a typo of '=='?"), place⟩
  | e => throw ⟨.badTarget, e.place⟩
where
  /-- The place of a call in a chain, which leaves nothing to write to. -/
  methodPlace? : Step → Option Place
    | .method place _ _ => some place
    | _ => none

/-- Whether a statement needs no semicolon after it. -/
def endsItself : Stmt → Bool
  | .branch .. | .loop .. | .each .. | .choice .. | .attempt .. | .nested .. => true
  | _ => false

/-! ## Section 3 - phrases -/

/-- Refuses a block where a condition is due. -/
def ensureNoBlock : Parse Unit := do
  let lexeme ← peek
  if Token.isSign lexeme.token "\x7b" then refuse lexeme (.expressionExpected "a boolean")

/-- Refuses an assignment where a condition ends. -/
def ensureNoAssignment : Parse Unit := do
  let lexeme ← peek
  match assignOp? lexeme.token with
  | some none => refuse lexeme (.lex (.improper "Possibly a typo of '=='?"))
  | some (some _) =>
    refuse lexeme (.lex (.improper "Expecting a boolean expression, not an assignment"))
  | none => return ()

/-- Reads the variable of a loop over items, and the one that counts them if there is one. -/
def loopVariables : Parse (String × Option String) := do
  if ← takeSign "(" then
    let (name, _) ← variableName
    let comma ← next
    if Token.isSign comma.token "," then
      let (counter, place) ← variableName
      if counter = name then throw ⟨.duplicateVariable counter, place⟩
      else
        let closing ← next
        if Token.isSign closing.token ")" then return (name, some counter)
        else refuse closing (.missing ")" "to close the iteration variable")
    else refuse comma (.missing "," "after the iteration variable name")
  else
    let (name, _) ← variableName
    return (name, none)

/-- Refuses cases whose values are not written out, and whole numbers that come after a range. -/
def checkCases (ranged : Bool) : List Expr → Parse Unit
  | [] => return ()
  | e :: es => do
    if !e.isConstant then throw ⟨.expressionExpected "a literal", e.start⟩
    else if ranged && e.isNumber then throw ⟨.numberAfterRange, e.start⟩
    else checkCases (ranged || e.isRange) es

/-- Reads what stands between two arms of a choice. -/
def armEnd (needsComma : Bool) : Parse Unit := do
  let lexeme ← peek
  match lexeme.token with
  | .sign "," =>
    let _ ← next
    return ()
  | .sign "\x7d" => return ()
  | .eof => refuse lexeme (.missing "\x7d" "to end this switch block")
  | _ =>
    if needsComma then refuse lexeme (.missing "," "to separate the items in this switch block")
    else return ()

/-- Refuses every further phrase. -/
def exhausted {α : Type} : Parse α := do
  throw ⟨.tooComplex, (← peek).place⟩

/-- Reads the parameters of a function after its opening parenthesis. -/
def params (function : String) : Nat → List String → Parse (List String)
  | 0, _ => exhausted
  | n + 1, read => do
    let lexeme ← next
    match lexeme.token with
    | .sign ")" => return read
    | .name s =>
      if read.contains s then refuse lexeme (.duplicateParam function s)
      else
        bringIn s false
        let separator ← next
        match separator.token with
        | .sign ")" => return read ++ [s]
        | .sign "," => params function n (read ++ [s])
        | _ => refuse separator (.missing "," s!"to separate the parameters of function '{function}'")
    | _ => refuse lexeme (.missing ")" s!"to close the parameters list of function '{function}'")

mutual

/-- Reads an expression. -/
def expr : Nat → Region → Parse Expr
  | 0, _ => exhausted
  | n + 1, r => do
    let left ← unary n r
    operators n r 1 left.place left

/-- Reads the operators after an operand that bind more strongly than `parent`. The last word that was taken for
the operand stands at `last`. -/
def operators : Nat → Region → Nat → Place → Expr → Parse Expr
  | 0, _, _, _, _ => exhausted
  | n + 1, r, parent, last, left => do
    let here ← strengthAfterOperand r
    if here ≤ parent then return left
    let operator ← next
    let right ← unary n r
    let after ← strengthAfterOperand r
    -- a stronger operator takes the right operand for itself first
    let passed := strengthToPass here
    let right ← if passed < after then operators n r passed right.place right else pure right
    -- each operator adds a level, since what is read so far is its left operand
    let r ← deeper r last
    let joined ← join operator left right
    operators n r parent operator.place joined

/-- Reads an operand with the operators before it. -/
def unary : Nat → Region → Parse Expr
  | 0, _ => exhausted
  | n + 1, r => do
    let lexeme ← peek
    match lexeme.token with
    | .sign "-" =>
      let _ ← next
      return negate lexeme.place (← unary n (← deeper r lexeme.place))
    | .sign "+" =>
      let _ ← next
      match ← unary n (← deeper r lexeme.place) with
      | e@(.literal _ (.int _)) | e@(.literal _ (.float _)) => return e
      | e => return .unary lexeme.place .plus e
    | .sign "!" =>
      let _ ← next
      return .unary lexeme.place .not (← unary n (← deeper r lexeme.place))
    | .eof => refuse lexeme .incomplete
    | _ => primary n r

/-- Reads an operand and the steps after it. -/
def primary : Nat → Region → Parse Expr
  | 0, _ => exhausted
  | n + 1, r => do
    let lexeme ← peek
    let place := lexeme.place
    let root ← match lexeme.token with
      | .int k => do let _ ← next; pure (.literal place (.int k))
      | .float x => do let _ ← next; pure (.literal place (.float x))
      | .char c => do let _ ← next; pure (.literal place (.char c))
      | .string s => do let _ ← next; pure (.literal place (.string s))
      | .sign "true" => do let _ ← next; pure (.literal place (.bool true))
      | .sign "false" => do let _ ← next; pure (.literal place (.bool false))
      | .openText s => do
        let _ ← next
        pure (.text place (← textParts n (← deeper r place) [.literal place (.string s)]))
      | .sign "(" => do
        let _ ← next
        if ← takeSign ")" then pure (.literal place .unit)
        else
          let e ← expr n (← deeper r place)
          let closing ← next
          match closing.token with
          | .sign ")" => pure e
          | _ => refuse closing (.missing ")" "for a matching ( in this expression")
      | .sign "[" => do
        let _ ← next
        pure (.array place (← arrayItems n (← deeper r place) []))
      | .sign "#\x7b" => do
        let _ ← next
        pure (.map place (← mapEntries n (← deeper r place) []))
      | .name s => do
        let _ ← next
        if ← takeSign "(" then pure (.call place s (← args n (← deeper r place) s)) else pure (.variable place s)
      | .reserved s => do
        let _ ← next
        if callableWords.contains s && Token.isSign (← peek).token "(" then
          let _ ← next
          pure (.call place s (← args n (← deeper r place) s))
        else if s = "this" then
          if r.inFunction then pure (.self place)
          else refuse lexeme (.lex (.improper s!"'{s}' can only be used in functions"))
        else refuse lexeme (.reserved s)
      | .eof => refuse lexeme .incomplete
      | _ =>
        match ← if r.statements then compound? n { r with top := false } else pure none with
        | some s => pure (s.asExpr place)
        | none => refuse lexeme (.lex (.unexpected lexeme.token.spelling))
    match ← steps n r [] with
    | [] => return root
    | path => return .chain root path

/-- Reads a statement that may stand as an expression, if the next word begins one. -/
def compound? : Nat → Region → Parse (Option Stmt)
  | 0, _ => exhausted
  | n + 1, r => do
    let lexeme ← peek
    let inner := deeper r lexeme.place
    match lexeme.token with
    | .sign "\x7b" => return some (.nested lexeme.place (← block n (← inner)))
    | .sign "if" => return some (← branch n (← inner))
    | .sign "while" | .sign "loop" => return some (← whileLoop n (← inner))
    | .sign "do" => return some (← doLoop n (← inner))
    | .sign "for" => return some (← forLoop n (← inner))
    | .sign "switch" => return some (← choice n (← inner))
    | _ => return none

/-- Reads the steps into a value. -/
def steps : Nat → Region → List Step → Parse (List Step)
  | 0, _, _ => exhausted
  | n + 1, r, read => do
    let lexeme ← peek
    let inner := deeper r lexeme.place
    match lexeme.token with
    | .sign "." =>
      let _ ← next
      property n (← inner) read
    | .sign "?." =>
      let _ ← next
      property n (← inner) (read ++ [.guard])
    | .sign "[" =>
      let _ ← next
      indexing n (← inner) lexeme.place read
    | .sign "?[" =>
      let _ ← next
      indexing n (← inner) lexeme.place (read ++ [.guard])
    | _ => return read

/-- Reads the property or the method after a point, and the steps after it. -/
def property : Nat → Region → List Step → Parse (List Step)
  | 0, _, _ => exhausted
  | n + 1, r, read => do
    let step ← peek
    match step.token with
    | .name s =>
      let _ ← next
      if ← takeSign "(" then
        let arguments ← args n (← deeper r step.place) s
        steps n r (read ++ [.method step.place s arguments])
      else steps n r (read ++ [.field step.place s])
    | .reserved s =>
      if methodWords.contains s then
        let _ ← next
        if ← takeSign "(" then
          let arguments ← args n (← deeper r step.place) s
          steps n r (read ++ [.method step.place s arguments])
        else refuse step (.reserved s)
      else refuse step (.reserved s)
    | _ => throw ⟨.propertyExpected, step.place⟩

/-- Reads the index after an opening bracket, which stands at `place`, and the steps after it. -/
def indexing : Nat → Region → Place → List Step → Parse (List Step)
  | 0, _, _, _ => exhausted
  | n + 1, r, place, read => do
    let index ← expr n r
    let closing ← next
    match closing.token with
    | .sign "]" => steps n r (read ++ [.index place index])
    | _ => refuse closing (.missing "]" "for a matching [ in this index expression")

/-- Reads the arguments of a call after its opening parenthesis. -/
def args : Nat → Region → String → Parse (List Expr)
  | 0, _, _ => exhausted
  | n + 1, r, function => do
    let lexeme ← peek
    match lexeme.token with
    | .eof => refuse lexeme (.missing ")" s!"to close the arguments list of this function call '{function}'")
    | .sign ")" =>
      let _ ← next
      return []
    | _ => moreArgs n r function []

/-- Reads the arguments that are left, with those read before them. -/
def moreArgs : Nat → Region → String → List Expr → Parse (List Expr)
  | 0, _, _, _ => exhausted
  | n + 1, r, function, read => do
    let read ← if Token.isSign (← peek).token ")" then pure read else do pure (read ++ [← expr n r])
    let lexeme ← next
    match lexeme.token with
    | .sign ")" => return read
    | .sign "," => moreArgs n r function read
    | .eof => refuse lexeme (.missing ")" s!"to close the arguments list of this function call '{function}'")
    | _ => refuse lexeme (.missing "," s!"to separate the arguments to function call '{function}'")

/-- Reads the items of an array after its opening bracket. -/
def arrayItems : Nat → Region → List Expr → Parse (List Expr)
  | 0, _, _ => exhausted
  | n + 1, r, read => do
    let lexeme ← peek
    match lexeme.token with
    | .sign "]" =>
      let _ ← next
      return read
    | .eof => refuse lexeme (.missing "]" "to end this array literal")
    | _ =>
      let read := read ++ [← expr n r]
      let separator ← peek
      match separator.token with
      | .sign "," =>
        let _ ← next
        arrayItems n r read
      | .sign "]" => arrayItems n r read
      | .eof => refuse separator (.missing "]" "to end this array literal")
      | _ => refuse separator (.missing "," "to separate the items of this array literal")

/-- Reads the entries of a map after its opening brace. -/
def mapEntries : Nat → Region → List (String × Expr) → Parse (List (String × Expr))
  | 0, _, _ => exhausted
  | n + 1, r, read => do
    let lexeme ← next
    match lexeme.token with
    | .sign "\x7d" => return read
    | .eof => refuse lexeme (.missing "\x7d" "to end this object map literal")
    | .name s | .string s =>
      if read.any (·.1 = s) then refuse lexeme (.duplicateProperty s)
      else
        let colon ← next
        if Token.isSign colon.token ":" then
          let value ← expr n r
          let read := read ++ [(s, value)]
          let separator ← peek
          match separator.token with
          | .sign "," =>
            let _ ← next
            mapEntries n r read
          | .sign "\x7d" => mapEntries n r read
          | .name _ => refuse separator (.missing "," "to separate the items of this object map literal")
          | _ => refuse separator (.missing "\x7d" "to end this object map literal")
        else refuse colon (.missing ":" s!"to follow the property '{s}' in this object map literal")
    | .openText _ => refuse lexeme .propertyExpected
    | .reserved s =>
      if isName s then refuse lexeme (.reserved s)
      else refuse lexeme (if read.isEmpty then .missing "\x7d" "to end this object map literal" else .propertyExpected)
    | _ =>
      refuse lexeme (if read.isEmpty then .missing "\x7d" "to end this object map literal" else .propertyExpected)

/-- Reads the rest of a text after the part before an expression. -/
def textParts : Nat → Region → List Expr → Parse (List Expr)
  | 0, _, _ => exhausted
  | n + 1, r, read => do
    let opening ← peek
    let body ← block n { r with top := false, statements := true }
    let read := read ++ [.block opening.place body]
    let lexeme ← next
    match lexeme.token with
    | .string s => return read ++ [.literal lexeme.place (.string s)]
    | .openText s => textParts n r (read ++ [.literal lexeme.place (.string s)])
    | _ => refuse lexeme (.lex .openString)

/-- Reads a block of statements, from its opening brace. -/
def block : Nat → Region → Parse (List Stmt)
  | 0, _ => exhausted
  | n + 1, r => do
    let opening ← next
    if Token.isSign opening.token "\x7b" then
      return dropInert (← withScope (blockRest n (← deeper { r with top := false } opening.place) []))
    else refuse opening (.missing "\x7b" "to start a statement block")

/-- Reads the statements of a block that are left, with those read before them. -/
def blockRest : Nat → Region → List Stmt → Parse (List Stmt)
  | 0, _, _ => exhausted
  | n + 1, r, read => do
    let lexeme ← peek
    match lexeme.token with
    | .sign "\x7d" =>
      let _ ← next
      return read
    | .eof => refuse lexeme (.missing "\x7d" "to terminate this block")
    | _ =>
      match ← statement n r with
      | none => blockRest n r read
      | some s =>
        let read := read ++ [s]
        let separator ← peek
        match separator.token with
        | .sign "\x7d" =>
          let _ ← next
          return read
        | .sign ";" =>
          let _ ← next
          blockRest n r read
        | _ =>
          if endsItself s then blockRest n r read
          else refuse separator (.missing ";" "to terminate this statement")

/-- Reads a statement. An empty statement and a function leave none. -/
def statement : Nat → Region → Parse (Option Stmt)
  | 0, _ => exhausted
  | n + 1, r => do
    let lexeme ← peek
    let place := lexeme.place
    match lexeme.token with
    | .eof => return none
    | .sign ";" =>
      let _ ← next
      return none
    | .sign "fn" =>
      if r.top then
        let _ ← next
        function n place
        return none
      else refuse lexeme .nestedFunction
    | .sign "private" =>
      if r.top then
        let _ ← next
        -- hooks are called whether they are private or not, and there is no one else to hide a function from
        let keyword ← next
        if Token.isSign keyword.token "fn" then
          function n keyword.place
          return none
        else refuse keyword (.missing "fn" "following 'private'")
      else refuse lexeme .nestedFunction
    | .sign "continue" =>
      if r.inLoop then
        let _ ← next
        return some (.again place)
      else refuse lexeme .strayBreak
    | .sign "break" =>
      if r.inLoop then
        let _ ← next
        return some (.leave place (← operand? n (← deeper r place)))
      else refuse lexeme .strayBreak
    | .sign "return" =>
      let _ ← next
      return some (.yield place (← operand? n (← deeper r place)))
    | .sign "throw" =>
      let _ ← next
      return some (.raise place (← operand? n (← deeper r place)))
    | .sign "let" =>
      let _ ← next
      return some (← declaration n (← deeper r place) place false)
    | .sign "const" =>
      let _ ← next
      return some (← declaration n (← deeper r place) place true)
    | .sign "try" => return some (← attempt n (← deeper r place))
    | _ =>
      match ← compound? n r with
      | some s => return some s
      | none =>
        let r ← deeper r place
        let target ← expr n r
        let operator ← peek
        match assignOp? operator.token with
        | none => return some (.expr target)
        | some op =>
          let _ ← next
          let value ← expr n r
          -- the target is looked at last, so a fault in the value comes before one in the target
          checkTarget target
          return some (.assign operator.place op target value)

/-- Reads the value of a break, a return or a throw, if one follows. -/
def operand? : Nat → Region → Parse (Option Expr)
  | 0, _ => exhausted
  | n + 1, r => do
    let lexeme ← peek
    match lexeme.token with
    | .eof | .sign ";" => return none
    -- at the top of a body no block is open that a brace could close
    | .sign "\x7d" => if r.top then return some (← expr n r) else return none
    | _ => return some (← expr n r)

/-- Reads a declaration after its keyword. -/
def declaration : Nat → Region → Place → Bool → Parse Stmt
  | 0, _, _, _ => exhausted
  | n + 1, r, place, constant => do
    let (name, _) ← variableName
    let value ← if ← takeSign "=" then do pure (some (← expr n r)) else pure none
    bringIn name constant
    return .declare place constant name value

/-- Reads an expression that is true or false. -/
def condition : Nat → Region → Parse Expr
  | 0, _ => exhausted
  | n + 1, r => do
    ensureNoBlock
    let e ← ensureBool (← expr n { r with top := false })
    ensureNoAssignment
    return e

/-- Reads a branch, from its keyword. -/
def branch : Nat → Region → Parse Stmt
  | 0, _ => exhausted
  | n + 1, r => do
    let keyword ← next
    let question ← condition n r
    let yes ← block n r
    if ← takeSign "else" then
      if Token.isSign (← peek).token "if" then
        let no ← branch n (← deeper r keyword.place)
        return .branch keyword.place question yes [no]
      else
        let no ← block n r
        return .branch keyword.place question yes no
    else return .branch keyword.place question yes []

/-- Reads a loop with a condition or without one, from its keyword. -/
def whileLoop : Nat → Region → Parse Stmt
  | 0, _ => exhausted
  | n + 1, r => do
    let keyword ← next
    let question ← if Token.isSign keyword.token "loop" then pure none else do pure (some (← condition n r))
    let body ← block n { r with inLoop := true }
    return .loop keyword.place question (dropInertEnd body)

/-- Reads a loop with the condition at its end, from its keyword. -/
def doLoop : Nat → Region → Parse Stmt
  | 0, _ => exhausted
  | n + 1, r => do
    let keyword ← next
    let body ← block n { r with inLoop := true }
    let word ← next
    match word.token with
    | .sign "while" => return .repetition keyword.place (dropInertEnd body) (← condition n r) true
    | .sign "until" => return .repetition keyword.place (dropInertEnd body) (← condition n r) false
    | _ => refuse word (.missing "while" "for the do statement")

/-- Reads a loop over the items of a value, from its keyword. -/
def forLoop : Nat → Region → Parse Stmt
  | 0, _ => exhausted
  | n + 1, r => do
    let keyword ← next
    let (name, counter) ← loopVariables
    let word ← next
    if Token.isSign word.token "in" then
      ensureNoBlock
      let items ← ensureIterable (← expr n { r with top := false })
      withScope do
        counter.forM (bringIn · false)
        bringIn name false
        let body ← block n { r with inLoop := true }
        return .each keyword.place name counter items (dropInertEnd body)
    else refuse word (.missing "in" "after the iteration variable")

/-- Reads a choice, from its keyword. -/
def choice : Nat → Region → Parse Stmt
  | 0, _ => exhausted
  | n + 1, r => do
    let keyword ← next
    let r := { r with top := false }
    let subject ← expr n r
    let opening ← next
    if Token.isSign opening.token "\x7b" then
      let (arms, otherwise) ← arms n r [] none
      return .choice keyword.place subject arms otherwise
    else refuse opening (.missing "\x7b" "to start a switch block")

/-- Reads the arms of a choice that are left, with those read before them and with what is done where no arm is for
the value, if that has been read, and the place of its underscore. -/
def arms : Nat → Region → List Arm → Option (Place × List Stmt) → Parse (List Arm × List Stmt)
  | 0, _, _, _ => exhausted
  | n + 1, r, read, otherwise => do
    let lexeme ← peek
    match lexeme.token, otherwise with
    | .sign "\x7d", _ =>
      let _ ← next
      return (read, (otherwise.map Prod.snd).getD [])
    | .eof, _ => refuse lexeme (.missing "\x7d" "to end this switch block")
    | .sign "_", none =>
      let _ ← next
      let word ← peek
      if Token.isSign word.token "if" then refuse word .defaultCondition
      else
        let action ← armAction n r
        armEnd !(action.any endsItself)
        arms n r read (some (lexeme.place, action))
    | .sign "_", some _ => refuse lexeme .duplicateDefault
    -- nothing may come after what is done otherwise
    | _, some (place, _) => throw ⟨.defaultNotLast, place⟩
    | _, none =>
      let cases ← caseList n r []
      let question ← if ← takeSign "if" then do pure (some (← condition n r)) else pure none
      let action ← armAction n r
      checkCases (read.any fun arm => arm.cases.any Expr.isRange) cases
      armEnd !(action.any endsItself)
      arms n r (read ++ [.mk cases question action]) none

/-- Reads the values and ranges that an arm is for, with those read before them. -/
def caseList : Nat → Region → List Expr → Parse (List Expr)
  | 0, _, _ => exhausted
  | n + 1, r, read => do
    let e ← retold (.expressionExpected "literal") (expr n { r with cases := true })
    if ← takeSign "|" then caseList n r (read ++ [e]) else return read ++ [e]

/-- Reads what an arm does, from its arrow. An empty statement stays without effect. -/
def armAction : Nat → Region → Parse (List Stmt)
  | 0, _ => exhausted
  | n + 1, r => do
    let arrow ← next
    if Token.isSign arrow.token "=>" then return (← withScope (statement n r)).toList
    else refuse arrow (.missing "=>" "in this switch case")

/-- Reads statements with those to run after a fault in them, from the keyword. -/
def attempt : Nat → Region → Parse Stmt
  | 0, _ => exhausted
  | n + 1, r => do
    let keyword ← next
    let body ← block n r
    let word ← next
    if Token.isSign word.token "catch" then
      if ← takeSign "(" then
        let (name, _) ← variableName
        let closing ← next
        if Token.isSign closing.token ")" then
          withScope do
            bringIn name false
            return .attempt keyword.place body (some name) (← block n r)
        else refuse closing (.missing ")" "to enclose the catch variable")
      else return .attempt keyword.place body none (← block n r)
    else refuse word (.missing "catch" "for the 'try' statement")

/-- Reads a function after its keyword, which stands at `place`. -/
def function : Nat → Place → Parse Unit
  | 0, _ => exhausted
  | n + 1, place => do
    let lexeme ← next
    match lexeme.token with
    | .name name =>
      let opening ← peek
      if Token.isSign opening.token "(" then
        let _ ← next
        -- a function does not see the names around it
        let scope := (← get).scope
        modify fun s => { s with scope := [] }
        let names ← params name n []
        let brace ← peek
        if Token.isSign brace.token "\x7b" then
          let body ← block n { inFunction := true, limit := functionDepth }
          if (← get).functions.any fun f => f.name = name && f.params.length = names.length then
            throw ⟨.duplicateFunction name names.length, place⟩
          modify fun s => { s with scope := scope, functions := s.functions ++ [⟨name, names, body⟩] }
        else throw ⟨.functionBody name, brace.place⟩
      else throw ⟨.functionParams name, opening.place⟩
    | .reserved word => throw ⟨.reserved word, lexeme.place⟩
    | _ => throw ⟨.functionName, lexeme.place⟩

end

/-- Reads the statements at the top of a body that are left, with those read before them. -/
def topRest : Nat → List Stmt → Parse (List Stmt)
  | 0, _ => exhausted
  | n + 1, read => do
    if Token.isEnd (← peek).token then return read
    match ← statement n { top := true } with
    | none => topRest n read
    | some s =>
      let read := read ++ [s]
      let separator ← peek
      match separator.token with
      | .eof => return read
      | .sign ";" =>
        -- after a block the semicolon is an empty statement of its own
        if endsItself s then topRest n read
        else
          let _ ← next
          topRest n read
      | _ =>
        if endsItself s then topRest n read
        else refuse separator (.missing ";" "to terminate this statement")

/-- Reads one expression that fills the whole text. -/
def wholeExpr (n : Nat) : Parse Expr := do
  let e ← expr n { statements := false }
  let lexeme ← peek
  match lexeme.token with
  | .eof => return e
  | token => refuse lexeme (.lex (.unexpected token.spelling))

/-- A measure that no reading of these words uses up. -/
def measure (lexemes : List Lexeme) : Nat := 16 * (lexemes.length + 4)

end HotReload.Body.Grammar

namespace HotReload.Body

/-- The program of a body, or the first fault in it. -/
def Program.parse (body : String) : Except ParseFault Program :=
  let lexemes := Lexer.words body
  match (Grammar.topRest (Grammar.measure lexemes) []).run ⟨lexemes, [], []⟩ with
  | .ok (statements, s) => .ok ⟨dropInert statements, s.functions⟩
  | .error fault => .error fault

/-- The expression that a text is, or the first fault in it. -/
def Expr.parse (text : String) : Except ParseFault Expr :=
  let lexemes := Lexer.words text
  match (Grammar.wholeExpr (Grammar.measure lexemes)).run ⟨lexemes, [], []⟩ with
  | .ok (e, _) => .ok e
  | .error fault => .error fault

end HotReload.Body
