import HotReload.Body.Token
import HotReload.Text.Blank

/-! # From characters to words

`words` splits a body into its words. Most words depend only on the characters at hand; two things
depend on what came before. A minus belongs to the number after it unless it stands after an operand. And
a text in backquotes may hold expressions in `${…}`: while one is being read, the braces open in it
are counted, and the brace that closes it leads back into the text.

Every reader hands back a cursor, and the loop goes on only while the rest gets shorter, so that it ends.
-/

namespace HotReload.Body.Lexer

/-! ## Section 1 - skipping -/

/-- Skips a block comment, in which comments may nest. An open comment ends with the body. -/
def skipBlock (depth : Nat) (p : Place) : List Char → Cursor
  | [] => ⟨p, []⟩
  | '/' :: '*' :: cs => skipBlock (depth + 1) ((p.next '/').next '*') cs
  | '*' :: '/' :: cs =>
    if depth ≤ 1 then ⟨(p.next '*').next '/', cs⟩ else skipBlock (depth - 1) ((p.next '*').next '/') cs
  | c :: cs => skipBlock depth (p.next c) cs

/-- The cursor after characters that satisfy a test, and those characters. -/
def spanning (test : Char → Bool) (c : Cursor) : List Char × Cursor :=
  let word := c.rest.takeWhile test
  (word, ⟨c.place.advance word, c.rest.dropWhile test⟩)

/-! ## Section 2 - numbers -/

/-- The value of a digit in bases up to sixteen. -/
def digitValue? (c : Char) : Option Nat :=
  if c.isDigit then some (c.toNat - '0'.toNat)
  else if 'a' ≤ c ∧ c ≤ 'f' then some (c.toNat - 'a'.toNat + 10)
  else if 'A' ≤ c ∧ c ≤ 'F' then some (c.toNat - 'A'.toNat + 10)
  else none

/-- The number that digits of a base stand for, if each is one. -/
def digits? (base : Nat) (ds : List Char) : Option Nat :=
  ds.foldl
    (fun acc c => do
      let n ← acc
      let d ← digitValue? c
      if d < base then some (n * base + d) else none)
    (if ds.isEmpty then none else some 0)

/-- The largest whole number of the language. -/
def maxInt : Int := 9223372036854775807

/-- The smallest whole number of the language. -/
def minInt : Int := -9223372036854775808

/-- Whether a whole number is one of the language. -/
def fits (n : Int) : Bool := minInt ≤ n && n ≤ maxInt

/-- The float of a mantissa without its point, the digits after the point, and an exponent. -/
def floatOf (negative : Bool) (mantissa : Nat) (places : Nat) (exponent : Int) : Float :=
  let e := exponent - places
  let x := if e < 0 then Float.ofScientific mantissa true e.natAbs else Float.ofScientific mantissa false e.natAbs
  if negative then -x else x

/-- A run of digits in which underscores are left out. -/
def digitRun (test : Char → Bool) (c : Cursor) : List Char × Cursor :=
  let (word, c) := spanning (fun x => test x || x = '_') c
  (word.filter (· ≠ '_'), c)

/-- The exponent at a cursor, if one stands there. -/
def exponent? (c : Cursor) : Option (Int × Cursor) :=
  match c.rest with
  | 'e' :: x :: cs =>
    let p := c.place.next 'e'
    if x.isDigit then
      let (ds, after) := digitRun Char.isDigit ⟨p, x :: cs⟩
      some (((digits? 10 ds).getD 0 : Nat), after)
    else if x = '+' ∨ x = '-' then
      let (ds, after) := digitRun Char.isDigit ⟨p.next x, cs⟩
      (digits? 10 ds).map fun n => (if x = '-' then -(n : Int) else n, after)
    else none
  | _ => none

/-- The decimals at a cursor, if a point and decimals stand there. A point before a name or another
point is none of a number's. -/
def decimals? (c : Cursor) : Option (List Char × Cursor) :=
  match c.rest with
  | '.' :: x :: _ =>
    let after : Cursor := ⟨c.place.next '.', c.rest.drop 1⟩
    if x.isDigit then some (digitRun Char.isDigit after)
    else if x = '_' ∨ x = '.' ∨ x.isAlpha then none
    else some ([], after)
  | ['.'] => none
  | _ => none

/-- The number at a cursor, whose first character is a digit. -/
def readNumber (negative : Bool) (c : Cursor) : Token × Cursor :=
  match c.rest with
  | '0' :: x :: cs =>
    let base? : Option Nat :=
      if x = 'x' ∨ x = 'X' then some 16
      else if x = 'o' ∨ x = 'O' then some 8
      else if x = 'b' ∨ x = 'B' then some 2
      else none
    match base? with
    | some base =>
      let test := if base = 16 then fun d => (digitValue? d).isSome else Char.isDigit
      let (ds, after) := digitRun test ⟨(c.place.next '0').next x, cs⟩
      match digits? base ds with
      | some n =>
        if n < 18446744073709551616 then
          -- the digits of another base are the bits of the number, sign included
          let n : Int := if n ≤ maxInt then n else n - 18446744073709551616
          (.int (if negative then -n else n), after)
        else (.bad (.malformedNumber (String.ofList ds)), after)
      | none => (.bad (.malformedNumber (String.ofList ds)), after)
    | none => decimal c
  | _ => decimal c
where
  /-- A number in base ten. One too large for a whole number is a float. -/
  decimal (c : Cursor) : Token × Cursor :=
    let (whole, afterWhole) := digitRun Char.isDigit c
    match decimals? afterWhole with
    | some (places, afterPlaces) =>
      let mantissa := (digits? 10 (whole ++ places)).getD 0
      match exponent? afterPlaces with
      | some (e, after) => (.float (floatOf negative mantissa places.length e), after)
      | none => (.float (floatOf negative mantissa places.length 0), afterPlaces)
    | none =>
      let n := (digits? 10 whole).getD 0
      match exponent? afterWhole with
      | some (e, after) => (.float (floatOf negative n 0 e), after)
      | none =>
        let signed : Int := if negative then -(n : Int) else n
        if fits signed then (.int signed, afterWhole) else (.float (floatOf negative n 0 0), afterWhole)

/-! ## Section 3 - strings -/

/-- How the reading of a string ended. -/
inductive StringEnd where
  | closed (text : List Char) (after : Cursor)
  /-- An expression inside the text follows; the cursor is at its brace. -/
  | opened (text : List Char) (after : Cursor)
  | failed (fault : LexFault) (place : Place)
  deriving Inhabited

/-- Puts a character in front of what a string holds. -/
def StringEnd.push (c : Char) : StringEnd → StringEnd
  | .closed t a => .closed (c :: t) a
  | .opened t a => .opened (c :: t) a
  | r => r

/-- How many hexadecimal digits an escape takes. -/
def escapeLength? : Char → Option Nat
  | 'x' => some 2
  | 'u' => some 4
  | 'U' => some 8
  | _ => none

/-- The character of a one-letter escape. -/
def simpleEscape? (quote : Char) : Char → Option Char
  | 't' => some '\t'
  | 'n' => some '\n'
  | 'r' => some '\r'
  | '\\' => some '\\'
  | c => if c = quote then some c else none

/-- What a numeric escape stands for, with the digits it takes. The fault is at the first character
that does not belong to it, or at its last one if it names no character. -/
def numericEscape (letter : Char) (count : Nat) (c : Cursor) : Except (LexFault × Place) Char :=
  let shown (n : Nat) : String := String.ofList ('\\' :: letter :: c.rest.take n)
  let good := (c.rest.take count).takeWhile fun d => (digitValue? d).isSome
  if good.length = count then
    let value := (digits? 16 good).getD 0
    if value < 0x110000 ∧ ¬ (0xD800 ≤ value ∧ value < 0xE000) then .ok (Char.ofNat value)
    else .error (.malformedEscape (shown count), c.place.advance (c.rest.take (count - 1)))
  else if good.length = c.rest.length then
    .error (.malformedEscape (shown good.length), c.place.advance (c.rest.take (good.length - 1)))
  else .error (.malformedEscape (shown (good.length + 1)), c.place.advance good)

/-- Reads a string up to its quote, from the character after the opening one. A doubled quote stands
for one. A text, in backquotes, takes lines and backslashes as they are and may hold expressions. -/
def readString (isText : Bool) (quote : Char) (opening p : Place) : List Char → StringEnd
  | [] => .failed .openString opening
  | x :: cs =>
    let q := p.next x
    if x = quote then
      match cs with
      | y :: ds =>
        if y = quote then (readString isText quote opening (q.next y) ds).push quote
        else .closed [] ⟨q, y :: ds⟩
      | [] => .closed [] ⟨q, []⟩
    else if isText then
      if x = '$' ∧ cs.head? = some '{' then .opened [] ⟨q, cs⟩
      else if x = '\r' ∧ cs.head? = some '\n' then readString isText quote opening q cs
      else (readString isText quote opening q cs).push x
    else if x = '\n' then .failed .openString opening
    else if x = '\\' then
      match cs with
      | [] => .failed .openString opening
      | y :: ds =>
        match simpleEscape? quote y with
        | some z => (readString isText quote opening (q.next y) ds).push z
        | none =>
          match escapeLength? y with
          | none => .failed (.malformedEscape (String.ofList ['\\', y])) q
          | some count =>
            match numericEscape y count ⟨q.next y, ds⟩ with
            | .error (fault, place) => .failed fault place
            | .ok z =>
              (readString isText quote opening ((q.next y).advance (ds.take count)) (ds.drop count)).push z
    else (readString isText quote opening q cs).push x
termination_by cs => cs.length
decreasing_by all_goals simp; try omega

/-- The word for what a string reader found, which began at `place`. -/
def stringWord (place : Place) (c : Cursor) : StringEnd → Lexeme × Cursor
  | .closed t after => (⟨.string (String.ofList t), place⟩, after)
  | .opened t after => (⟨.openText (String.ofList t), place⟩, after)
  | .failed fault at_ => (⟨.bad fault, at_⟩, ⟨c.place, []⟩)

/-- A line end right after an opening backquote is no part of the text. -/
def skipFirstLineEnd (c : Cursor) : Cursor :=
  match c.rest with
  | '\r' :: '\n' :: cs => ⟨(c.place.next '\r').next '\n', cs⟩
  | '\r' :: cs => ⟨c.place.next '\n', cs⟩
  | '\n' :: cs => ⟨c.place.next '\n', cs⟩
  | _ => c

/-- The character literal at a cursor, which is at its opening quote. -/
def readChar (c : Cursor) : Lexeme × Cursor :=
  let opening := c.place
  match c.rest with
  | _ :: '\'' :: cs => (⟨.bad (.malformedChar ""), opening⟩, ⟨(opening.next '\'').next '\'', cs⟩)
  | _ :: cs =>
    match readString false '\'' opening (opening.next '\'') cs with
    | .closed [x] after => (⟨.char x, opening⟩, after)
    | .closed t after => (⟨.bad (.malformedChar (String.ofList t)), opening⟩, after)
    | r => stringWord opening c r
  | [] => (⟨.eof, opening⟩, c)

/-! ## Section 4 - one word -/

/-- The first of some spellings with which the rest begins. -/
def spelled? (spellings : List String) (cs : List Char) : Option String :=
  spellings.find? fun s => s.toList.isPrefixOf cs

/-- The sign with which the rest begins. The word `in` right after a `!` is one sign with it, unless it begins a
longer name. -/
def signAt? (cs : List Char) : Option String :=
  if "!in".toList.isPrefixOf cs && !((cs.drop "!in".length).head?.any isNamePart) then some "!in"
  else spelled? signs cs

/-- The word that a name-like run of characters is. -/
def nameToken (s : String) : Token :=
  if keywords.contains s then .sign s
  else if reservedWords.contains s then .reserved s
  else if isName s then .name s
  else .bad (.malformedName s)

/-- The next word, where no blank or comment stands before it, with the cursor after it. -/
def readWord (negatable : Bool) (c : Cursor) : Lexeme × Cursor :=
  match c.rest with
  | [] => (⟨.eof, c.place⟩, c)
  | x :: cs =>
    if x.isDigit then
      let (token, after) := readNumber false c
      (⟨token, c.place⟩, after)
    else if x = '-' ∧ negatable ∧ (cs.head?.map Char.isDigit).getD false then
      let (token, after) := readNumber true ⟨c.place.next x, cs⟩
      (⟨token, c.place⟩, after)
    else if isNameStart x then
      let (word, after) := spanning isNamePart c
      (⟨nameToken (String.ofList word), c.place⟩, after)
    else if x = '"' then stringWord c.place c (readString false '"' c.place (c.place.next x) cs)
    else if x = '`' then
      let first := skipFirstLineEnd ⟨c.place.next x, cs⟩
      stringWord c.place c (readString true '`' c.place first.place first.rest)
    else if x = '\'' then readChar c
    else
      let sized (s : String) : Cursor := ⟨c.place.advance s.toList, c.rest.drop s.length⟩
      -- of two signs that begin alike the longer one is meant
      match spelled? reservedSigns c.rest with
      | some s =>
        match signAt? c.rest with
        | some t => if s.length < t.length then (⟨.sign t, c.place⟩, sized t) else (reservedSign s c.place, sized s)
        | none => (reservedSign s c.place, sized s)
      | none =>
        match signAt? c.rest with
        | some t => (⟨.sign t, c.place⟩, sized t)
        | none => (⟨.bad (.unexpected (String.singleton x)), c.place⟩, ⟨c.place.next x, cs⟩)
where
  /-- A reserved sign, or the advice for one of another language. -/
  reservedSign (s : String) (place : Place) : Lexeme :=
    match foreignAdvice? s with
    | some advice => ⟨.bad (.improper advice), place⟩
    | none => ⟨.reserved s, place⟩

/-! ## Section 5 - all words -/

/-- Skips what stands between words, and says whether there was any of it. -/
def skipOne? (c : Cursor) : Option Cursor :=
  match c.rest with
  | '/' :: '/' :: _ => some (spanning (· ≠ '\n') c).2
  | '/' :: '*' :: cs => some (skipBlock 1 ((c.place.next '/').next '*') cs)
  | x :: cs => if isBlank x then some ⟨c.place.next x, cs⟩ else none
  | [] => none

/-- What the loop does with a word: the expressions that are open in texts afterwards, each with its open
braces, and whether the word after it is the rest of a text. -/
def openings (token : Token) (stack : List Nat) : List Nat × Bool :=
  match token, stack with
  | .openText _, stack => (0 :: stack, false)
  | .sign "\x7b", depth :: stack | .sign "#\x7b", depth :: stack => ((depth + 1) :: stack, false)
  | .sign "\x7d", depth :: stack =>
    if depth ≤ 1 then (stack, true) else ((depth - 1) :: stack, false)
  | _, stack => (stack, false)

/-- The words from a cursor on. -/
def wordsFrom (negatable : Bool) (stack : List Nat) (c : Cursor) : List Lexeme :=
  match skipOne? c with
  | some d =>
    if d.rest.length < c.rest.length then wordsFrom negatable stack d else [⟨.eof, d.place⟩]
  | none =>
    let (lexeme, after) := readWord negatable c
    let (stack, inText) := openings lexeme.token stack
    -- the brace that ends an expression in a text is followed by the rest of the text
    let (more, after) : List Lexeme × Cursor :=
      if inText then
        let (text, after) :=
          stringWord after.place after (readString true '`' after.place after.place after.rest)
        ([text], after)
      else ([], after)
    let stack := match more with
      | [⟨.openText _, _⟩] => 0 :: stack
      | _ => stack
    if after.rest.length < c.rest.length then
      lexeme :: more ++ wordsFrom ((more.getLast?.getD lexeme).token.precedesNumber) stack after
    else lexeme :: more
termination_by c.rest.length

/-- The words of a body. The last one is its end. -/
def words (body : String) : List Lexeme := wordsFrom true [] (.ofText body.toList)

end HotReload.Body.Lexer
