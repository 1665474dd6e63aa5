import HotReload.Settings.Document

/-! # Reading documents

How the bytes of a document become a document. Every reader starts at a cursor and hands back the cursor after what it
has read, or the fault that stopped it.
-/

namespace HotReload

/-- The bytes still to be read, and the place before them. -/
structure ByteCursor where
  bytes : List UInt8
  mark : Mark := {}
  deriving Inhabited

namespace ByteCursor

/-- The first byte, if there is one. -/
def peek? (c : ByteCursor) : Option UInt8 := c.bytes.head?

/-- The cursor after the first byte. -/
def next (c : ByteCursor) : ByteCursor :=
  match c.bytes with
  | [] => c
  | b :: rest => ⟨rest, c.mark.next b⟩

/-- The place after the first byte, or the place of the end. -/
def ahead (c : ByteCursor) : Mark := c.next.mark

/-- A fault at the first byte. -/
def faultAhead (c : ByteCursor) (cause : DocumentCause) : DocumentFault := ⟨cause, c.ahead⟩

/-- A fault at the bytes read so far. -/
def faultHere (c : ByteCursor) (cause : DocumentCause) : DocumentFault := ⟨cause, c.mark⟩

/-- The cursor after the bytes that satisfy a test, read from `bytes` on. -/
def dropWhileFrom (test : UInt8 → Bool) (mark : Mark) : List UInt8 → ByteCursor
  | [] => ⟨[], mark⟩
  | b :: rest => if test b then dropWhileFrom test (mark.next b) rest else ⟨b :: rest, mark⟩

/-- Skips the bytes that satisfy a test. -/
def dropWhile (test : UInt8 → Bool) (c : ByteCursor) : ByteCursor := dropWhileFrom test c.mark c.bytes

/-- Skips white space. -/
def dropBlanks (c : ByteCursor) : ByteCursor :=
  c.dropWhile fun b => b = 32 ∨ b = 9 ∨ b = 10 ∨ b = 13

end ByteCursor

namespace Document

open ByteCursor

/-- The byte of an ASCII character. -/
def byteOf (c : Char) : UInt8 := c.val.toUInt8

/-- Whether a byte is a decimal digit. -/
def isDigit (b : UInt8) : Bool := 48 ≤ b ∧ b ≤ 57

/-- Whether a digit follows. -/
def digitAhead (c : ByteCursor) : Bool := c.peek?.any isDigit

/-- Whether one of two characters follows. -/
def eitherAhead (x y : Char) (c : ByteCursor) : Bool := c.peek? = some (byteOf x) ∨ c.peek? = some (byteOf y)

/-! ## Section 1 - words -/

/-- Reads the rest of a word. -/
def readWord (c : ByteCursor) : List Char → Except DocumentFault ByteCursor
  | [] => .ok c
  | letter :: rest =>
    match c.peek? with
    | none => .error (c.faultHere .endInValue)
    | some b => if b = byteOf letter then readWord c.next rest else .error (c.next.faultHere .noWord)

/-! ## Section 2 - numbers -/

/-- The greatest number that is read exactly. -/
def maxNatural : Nat := 18446744073709551615

/-- The greatest number that is still read exactly when it stands after a minus sign. -/
def maxNegative : Nat := 9223372036854775808

/-- The greatest exponent that can be written. -/
def maxExponent : Nat := 2147483647

/-- A power of ten as a float. -/
def tenTo (n : Nat) : Float := Float.ofScientific 1 false n

/-- Scales a number by a power of ten, in steps of at most 308 places. `none` stands for a number out of range. -/
def scaled (x : Float) (exponent : Int) : Nat → Option Float
  | 0 => some 0
  | steps + 1 =>
    if exponent.natAbs ≤ 308 then
      if 0 ≤ exponent then
        let y := x * tenTo exponent.natAbs
        if y.isInf then none else some y
      else some (x / tenTo exponent.natAbs)
    -- zero stays zero, and any other number is out of range with so large an exponent
    else if x == 0 then some x
    else if 0 ≤ exponent then none
    else scaled (x / tenTo 308) (exponent + 308) steps

/-- The float for digits and an exponent. -/
def floatOf (positive : Bool) (digits : Nat) (exponent : Int) (c : ByteCursor) :
    Except DocumentFault (Number × ByteCursor) :=
  match scaled (Float.ofNat digits) exponent (exponent.natAbs / 308 + 2) with
  | some x => .ok (.float (if positive then x else -x), c)
  | none => .error (c.faultHere .hugeNumber)

/-- The longest run of digits at a cursor. -/
def digitsAt (c : ByteCursor) : List UInt8 := c.bytes.takeWhile isDigit

/-- Adds digits to a number as long as the sum is read exactly. Hands back the digits that were left over. -/
def accumulate (n : Nat) : List UInt8 → Nat × List UInt8
  | [] => (n, [])
  | b :: rest =>
    let sum := n * 10 + (b.toNat - 48)
    if sum ≤ maxNatural then accumulate sum rest else (n, b :: rest)

/-- Reads an exponent, which starts at its mark. -/
def readExponent (positive : Bool) (digits : Nat) (exponent : Int) (c : ByteCursor) :
    Except DocumentFault (Number × ByteCursor) :=
  let c := c.next
  let down := c.peek? = some (byteOf '-')
  let c := if eitherAhead '+' '-' c then c.next else c
  if c.bytes = [] then .error (c.faultHere .endInValue)
  else if !digitAhead c then .error (c.next.faultHere .badNumber)
  else
    let size := (digitsAt c).foldl (fun n b => n * 10 + (b.toNat - 48)) 0
    let after := c.dropWhile isDigit
    if size ≤ maxExponent then floatOf positive digits (if down then exponent - Int.ofNat size else exponent + Int.ofNat size) after
    -- an exponent too large to be read still makes a zero of a zero, and of any number if it is negative
    else if digits ≠ 0 ∧ !down then
      let kept := (accumulateBelow 0 (digitsAt c)).length
      .error ⟨.hugeNumber, (consume (kept + 1) c).mark⟩
    else .ok (.float (if positive then 0 else -0.0), after)
where
  /-- The digits of an exponent that are read before it is too large. -/
  accumulateBelow (n : Nat) : List UInt8 → List UInt8
    | [] => []
    | b :: rest =>
      let sum := n * 10 + (b.toNat - 48)
      if sum ≤ maxExponent then b :: accumulateBelow sum rest else []
  /-- The cursor some bytes further. -/
  consume : Nat → ByteCursor → ByteCursor
    | 0, c => c
    | n + 1, c => consume n c.next

/-- Goes on after the digits before the exponent. -/
def readTail (positive : Bool) (digits : Nat) (exponent : Int) (c : ByteCursor) :
    Except DocumentFault (Number × ByteCursor) :=
  if eitherAhead 'e' 'E' c then readExponent positive digits exponent c else floatOf positive digits exponent c

/-- Reads the places after a point. Digits that do not fit are dropped. -/
def readPlaces (positive : Bool) (digits : Nat) (exponent : Int) (c : ByteCursor) :
    Except DocumentFault (Number × ByteCursor) :=
  let c := c.next
  let places := digitsAt c
  let (sum, left) := accumulate digits places
  if places = [] then
    .error (if c.bytes = [] then c.faultHere .endInValue else c.faultAhead .badNumber)
  else readTail positive sum (exponent - Int.ofNat (places.length - left.length)) (c.dropWhile isDigit)

/-- Reads a number, after its sign. A whole number that is too large is read as a float. -/
def readNumber (positive : Bool) (c : ByteCursor) : Except DocumentFault (Number × ByteCursor) :=
  match c.peek? with
  | none => .error (c.faultHere .endInValue)
  | some b =>
    if !isDigit b then .error (c.next.faultHere .badNumber)
    else if b = 48 ∧ digitAhead c.next then .error (c.next.faultAhead .badNumber)
    else
      let (digits, left) := accumulate 0 (digitsAt c)
      let after := c.dropWhile isDigit
      let exponent : Int := left.length
      if after.peek? = some (byteOf '.') then readPlaces positive digits exponent after
      else if eitherAhead 'e' 'E' after then readExponent positive digits exponent after
      else if left ≠ [] then floatOf positive digits exponent after
      else if positive then .ok (.natural digits, after)
      -- a negative zero and a number below the least whole one are floats
      else if digits = 0 ∨ maxNegative < digits then .ok (.float (-Float.ofNat digits), after)
      else .ok (.negative digits, after)

/-- Skips an exponent, which starts at its mark. -/
def skipExponent (c : ByteCursor) : Except DocumentFault ByteCursor :=
  let c := c.next
  let c := if eitherAhead '+' '-' c then c.next else c
  if digitAhead c then .ok (c.dropWhile isDigit) else .error (c.next.faultHere .badNumber)

/-- Skips a number, after its sign. -/
def skipNumber (c : ByteCursor) : Except DocumentFault ByteCursor :=
  if !digitAhead c then .error (c.next.faultHere .badNumber)
  else if c.peek? = some 48 ∧ digitAhead c.next then .error (c.next.faultAhead .badNumber)
  else
    let after := c.dropWhile isDigit
    if after.peek? = some (byteOf '.') then
      let places := after.next
      if !digitAhead places then .error (places.faultAhead .badNumber)
      else
        let after := places.dropWhile isDigit
        if eitherAhead 'e' 'E' after then skipExponent after else .ok after
    else if eitherAhead 'e' 'E' after then skipExponent after
    else .ok after

/-! ## Section 3 - texts -/

/-- The value of a hexadecimal digit. -/
def hexDigit? (b : UInt8) : Option Nat :=
  if 48 ≤ b ∧ b ≤ 57 then some (b.toNat - 48)
  else if 97 ≤ b ∧ b ≤ 102 then some (b.toNat - 87)
  else if 65 ≤ b ∧ b ≤ 70 then some (b.toNat - 55)
  else none

/-- Reads four hexadecimal digits. -/
def readUnit (c : ByteCursor) : Except DocumentFault (Nat × ByteCursor) :=
  match c.bytes with
  | b₁ :: b₂ :: b₃ :: b₄ :: _ =>
    let after := c.next.next.next.next
    match hexDigit? b₁, hexDigit? b₂, hexDigit? b₃, hexDigit? b₄ with
    | some d₁, some d₂, some d₃, some d₄ => .ok (((d₁ * 16 + d₂) * 16 + d₃) * 16 + d₄, after)
    | _, _, _, _ => .error (after.faultHere .badEscape)
  | _ => .error ((c.dropWhile fun _ => true).faultHere .endInText)

/-- Reads one character that is to follow. -/
def readSurrogateMark (letter : Char) (c : ByteCursor) : Except DocumentFault ByteCursor :=
  match c.peek? with
  | none => .error (c.faultHere .endInText)
  | some b => if b = byteOf letter then .ok c.next else .error (c.next.faultHere .openSurrogate)

/-- Reads the character of an escape by code point. A character above the first plane is written as two units. -/
def readCodePoint (c : ByteCursor) : Except DocumentFault (Char × ByteCursor) := do
  let (high, c) ← readUnit c
  if 0xDC00 ≤ high ∧ high ≤ 0xDFFF then .error (c.faultHere .loneSurrogate)
  else if high < 0xD800 ∨ 0xDBFF < high then .ok (Char.ofNat high, c)
  else
    let c ← readSurrogateMark '\\' c
    let c ← readSurrogateMark 'u' c
    let (low, c) ← readUnit c
    if low < 0xDC00 ∨ 0xDFFF < low then .error (c.faultHere .loneSurrogate)
    else .ok (Char.ofNat ((high - 0xD800) * 1024 + (low - 0xDC00) + 0x10000), c)

/-- The character that an escape by letter stands for. -/
def escaped? (b : UInt8) : Option Char :=
  if b = byteOf '"' then some '"'
  else if b = byteOf '\\' then some '\\'
  else if b = byteOf '/' then some '/'
  else if b = byteOf 'b' then some '\x08'
  else if b = byteOf 'f' then some '\x0c'
  else if b = byteOf 'n' then some '\n'
  else if b = byteOf 'r' then some '\r'
  else if b = byteOf 't' then some '\t'
  else none

/-- Reads an escape, after its backslash. -/
def readEscape (c : ByteCursor) : Except DocumentFault (Char × ByteCursor) :=
  match c.peek? with
  | none => .error (c.faultHere .endInText)
  | some b =>
    if b = byteOf 'u' then readCodePoint c.next
    else
      match escaped? b with
      | some char => .ok (char, c.next)
      | none => .error (c.next.faultHere .badEscape)

/-- Skips an escape, after its backslash. Whether it names a character does not matter. -/
def skipEscape (c : ByteCursor) : Except DocumentFault ByteCursor :=
  match c.peek? with
  | none => .error (c.faultHere .endInText)
  | some b =>
    if b = byteOf 'u' then (readUnit c.next).map Prod.snd
    else if (escaped? b).isSome then .ok c.next
    else .error (c.next.faultHere .badEscape)

/-- The number of bytes of a character, told by its first byte. -/
def characterSize (b : UInt8) : Nat :=
  if b < 0x80 then 1 else if b < 0xE0 then 2 else if b < 0xF0 then 3 else 4

/-- The character that some bytes are the encoding of. -/
def character? (bytes : List UInt8) : Option Char :=
  (String.fromUTF8? ⟨bytes.toArray⟩).bind fun s => s.toList.head?

/-- Reads a text, after its opening quote. -/
def readText (c : ByteCursor) (read : List Char) : Nat → Except DocumentFault (String × ByteCursor)
  | 0 => .error (c.faultHere .endInText)
  | steps + 1 =>
    match c.bytes with
    | [] => .error (c.faultHere .endInText)
    | b :: _ =>
      if b = byteOf '"' then .ok (String.ofList read.reverse, c.next)
      else if b = byteOf '\\' then
        match readEscape c.next with
        | .error fault => .error fault
        | .ok (char, c) => readText c (char :: read) steps
      else if b < 32 then .error (c.next.faultHere .controlCharacter)
      else
        match character? (c.bytes.take (characterSize b)) with
        | none => .error (c.next.faultHere .badCharacter)
        | some char =>
          let mark := (c.bytes.take (characterSize b)).foldl Mark.next c.mark
          readText ⟨c.bytes.drop (characterSize b), mark⟩ (char :: read) steps

/-- Skips a text, after its opening quote. -/
def skipText (c : ByteCursor) : Nat → Except DocumentFault ByteCursor
  | 0 => .error (c.faultHere .endInText)
  | steps + 1 =>
    match c.peek? with
    | none => .error (c.faultHere .endInText)
    | some b =>
      if b = byteOf '"' then .ok c.next
      else if b = byteOf '\\' then
        match skipEscape c.next with
        | .error fault => .error fault
        | .ok c => skipText c steps
      else if b < 32 then .error (c.next.faultHere .controlCharacter)
      else skipText c.next steps

/-- Reads and skips the text after an opening quote. -/
def textAt (c : ByteCursor) : Scalar String × Except DocumentFault ByteCursor :=
  let skipped := skipText c (c.bytes.length + 1)
  (⟨(readText c [] (c.bytes.length + 1)).map Prod.fst, skipped.map fun _ => ()⟩, skipped)

/-- Reads and skips the number after a sign. -/
def numberAt (positive : Bool) (c : ByteCursor) : Scalar Number × Except DocumentFault ByteCursor :=
  let skipped := skipNumber c
  (⟨(readNumber positive c).map Prod.fst, skipped.map fun _ => ()⟩, skipped)

/-! ## Section 4 - values -/

/-- A scalar as a document. Nothing is read after a scalar that cannot even be skipped. -/
def ofScalar {α : Type} (build : Scalar α → Mark → Document) (c : ByteCursor) :
    Scalar α × Except DocumentFault ByteCursor → Document × Option ByteCursor
  | (scalar, .ok after) => (build scalar after.mark, some after)
  | (scalar, .error _) => (build scalar c.mark, none)

/-- A word as a document. -/
def ofWord (value : Mark → Document) (c : ByteCursor) (rest : String) : Document × Option ByteCursor :=
  match readWord c rest.toList with
  | .ok after => (value after.mark, some after)
  | .error fault => (.broken fault, none)

mutual

/-- Reads a value. Without a cursor nothing can be read after it. -/
def read (c : ByteCursor) : Nat → Document × Option ByteCursor
  | 0 => (.broken (c.faultHere .endInValue), none)
  | steps + 1 =>
    let c := c.dropBlanks
    match c.peek? with
    | none => (.broken (c.faultHere .endInValue), none)
    | some b =>
      if b = byteOf 'n' then ofWord .null c.next "ull"
      else if b = byteOf 't' then ofWord (.bool true) c.next "rue"
      else if b = byteOf 'f' then ofWord (.bool false) c.next "alse"
      else if b = byteOf '-' then ofScalar .number c (numberAt false c.next)
      else if isDigit b then ofScalar .number c (numberAt true c)
      else if b = byteOf '"' then ofScalar .text c (textAt c.next)
      else if b = byteOf '[' then
        let (items, after) := readItems c.next true steps
        (.array c.mark items, after)
      else if b = byteOf '\x7b' then
        let (members, after) := readMembers c.next true steps
        (.object c.mark members, after)
      else (.broken (c.faultAhead .noValue), none)

/-- Reads the elements of an array up to its bracket. Every element but the first follows a comma. -/
def readItems (c : ByteCursor) (first : Bool) : Nat → Items × Option ByteCursor
  | 0 => (.stop .endOfText c.mark, none)
  | steps + 1 =>
    let c := c.dropBlanks
    match c.peek? with
    | none => (.stop .endOfText c.mark, none)
    | some b =>
      if b = byteOf ']' then (.close c.next.mark, some c.next)
      else if !first ∧ b ≠ byteOf ',' then (.stop .noComma c.ahead, none)
      else
        let c := if first then c else c.next.dropBlanks
        match c.peek? with
        | none => (.stop .endAfterComma c.mark, none)
        | some b =>
          if b = byteOf ']' then (.stop .trailingComma c.ahead, none)
          else
            match read c steps with
            | (value, none) => (.item c.ahead value (.stop .lost c.mark), none)
            | (value, some after) =>
              let (rest, last) := readItems after false steps
              (.item c.ahead value rest, last)

/-- Reads the members of an object up to its brace. Every member but the first follows a comma. -/
def readMembers (c : ByteCursor) (first : Bool) : Nat → Members × Option ByteCursor
  | 0 => (.stop .endOfText c.mark, none)
  | steps + 1 =>
    let c := c.dropBlanks
    match c.peek? with
    | none => (.stop .endOfText c.mark, none)
    | some b =>
      if b = byteOf '\x7d' then (.close c.next.mark, some c.next)
      else if !first ∧ b ≠ byteOf ',' then (.stop .noComma c.ahead, none)
      else
        let c := if first then c else c.next.dropBlanks
        match c.peek? with
        | none => (.stop .endAfterComma c.mark, none)
        | some b =>
          if b = byteOf '\x7d' then (.stop .trailingComma c.ahead, none)
          else if b ≠ byteOf '"' then (.stop .noKey c.ahead, none)
          else
            match textAt c.next with
            | (key, .error _) => (.member key c.mark (.broken (c.faultHere .endInText)) (.stop .lost c.mark), none)
            | (key, .ok after) =>
              let turn := after.dropBlanks
              match turn.peek? with
              | none => (.member key turn.mark (.broken (turn.faultHere .endInObject)) (.stop .lost turn.mark), none)
              | some b =>
                if b ≠ byteOf ':' then
                  (.member key turn.mark (.broken (turn.faultAhead .noColon)) (.stop .lost turn.mark), none)
                else
                  match read turn.next steps with
                  | (value, none) => (.member key turn.mark value (.stop .lost turn.mark), none)
                  | (value, some after) =>
                    let (rest, last) := readMembers after false steps
                    (.member key turn.mark value rest, last)

end

/-- Reads the document at the start of some bytes, and what follows it: the fault of something that does. -/
def ofBytes (bytes : ByteArray) : Document × Option DocumentFault :=
  let c : ByteCursor := ⟨bytes.toList, {}⟩
  match read c (2 * bytes.size + 2) with
  | (document, none) => (document, none)
  | (document, some after) =>
    let rest := after.dropBlanks
    (document, if rest.bytes = [] then none else some (rest.faultAhead .trailingBytes))

end Document

end HotReload
