import HotReload.Text.Decimal
import HotReload.Text.Quoted

/-! # Documents

A JSON document as far as it can be read. Where the reading had to stop, the document holds the fault in the
place of what is missing. So a document always exists, and whoever looks at it meets its faults in the order of the
text, mixed with the faults of its own wishes.

A value that nobody asks for is only skipped, and skipping is less strict: it takes a number of any size and a text that
names no character. Where the two differ the document holds both outcomes.
-/

namespace HotReload

/-! ## Section 1 - places and faults -/

/-- A place between two bytes: the line, counted from one, and the number of bytes of it that were read. -/
structure Mark where
  line : Nat := 1
  column : Nat := 0
  deriving DecidableEq, Repr, Inhabited

/-- The place after one byte. -/
def Mark.next (m : Mark) (byte : UInt8) : Mark :=
  if byte = 10 then ⟨m.line + 1, 0⟩ else ⟨m.line, m.column + 1⟩

/-- A number of a document. -/
inductive Number where
  | natural (n : Nat)
  /-- The number `-n`, below zero. -/
  | negative (n : Nat)
  | float (x : Float)
  deriving Inhabited

/-- What a value is, as it is named where another one was expected. -/
inductive Found where
  | null
  | bool (b : Bool)
  | number (n : Number)
  | text (s : String)
  | array
  | object
  deriving Inhabited

/-- Why a document was refused. -/
inductive DocumentCause where
  | endInValue
  | endInArray
  | endInObject
  | endInText
  | noValue
  | noWord
  | noColon
  | noCommaInArray
  | noCommaInObject
  | noKey
  | trailingComma
  | trailingBytes
  | badNumber
  | hugeNumber
  | badEscape
  | badCharacter
  | loneSurrogate
  | openSurrogate
  | controlCharacter
  | wrongType (found : Found) (expected : String)
  | wrongValue (found : Found) (expected : String)
  | missingField (name : String)
  | duplicateField (name : String)
  | tooShort (length : Nat) (expected : String)
  deriving Inhabited

/-- A fault of a document, with its place. -/
structure DocumentFault where
  cause : DocumentCause
  mark : Mark
  deriving Inhabited

/-- The text of a float: a point always, and an exponent from `10 ^ 16` on and below `10 ^ -5`. -/
def Number.floatText : Float → String :=
  HotReload.floatText "0.0" "inf" fun _ d =>
    if -5 ≤ d.exponent ∧ d.exponent < 16 then
      if d.isWhole then d.positional ++ ".0" else d.positional
    else d.scientific "e" true

/-- A value in the words of a message. -/
def Found.message : Found → String
  | .null => "null"
  | .bool b => if b then "boolean \x60true\x60" else "boolean \x60false\x60"
  | .number (.natural n) => s!"integer \x60{n}\x60"
  | .number (.negative n) => s!"integer \x60-{n}\x60"
  | .number (.float x) =>
    let sign := if x == 0 ∧ x.toBits ≠ 0 then "-" else ""
    let digits := sign ++ Number.floatText x
    s!"floating point \x60{digits}\x60"
  | .text s => "string " ++ quoted s
  | .array => "sequence"
  | .object => "map"

/-- The words for a cause. -/
def DocumentCause.message : DocumentCause → String
  | .endInValue => "EOF while parsing a value"
  | .endInArray => "EOF while parsing a list"
  | .endInObject => "EOF while parsing an object"
  | .endInText => "EOF while parsing a string"
  | .noValue => "expected value"
  | .noWord => "expected ident"
  | .noColon => "expected \x60:\x60"
  | .noCommaInArray => "expected \x60,\x60 or \x60]\x60"
  | .noCommaInObject => "expected \x60,\x60 or \x60\x7d\x60"
  | .noKey => "key must be a string"
  | .trailingComma => "trailing comma"
  | .trailingBytes => "trailing characters"
  | .badNumber => "invalid number"
  | .hugeNumber => "number out of range"
  | .badEscape => "invalid escape"
  | .badCharacter => "invalid unicode code point"
  | .loneSurrogate => "lone leading surrogate in hex escape"
  | .openSurrogate => "unexpected end of hex escape"
  | .controlCharacter => "control character (\\u0000-\\u001F) found while parsing a string"
  | .wrongType found expected => s!"invalid type: {found.message}, expected {expected}"
  | .wrongValue found expected => s!"invalid value: {found.message}, expected {expected}"
  | .missingField name => s!"missing field \x60{name}\x60"
  | .duplicateField name => s!"duplicate field \x60{name}\x60"
  | .tooShort length expected => s!"invalid length {length}, expected {expected}"

/-- A fault in words, with its place. -/
def DocumentFault.message (f : DocumentFault) : String :=
  s!"{f.cause.message} at line {f.mark.line} column {f.mark.column}"

/-! ## Section 2 - documents -/

/-- Why the elements of an array or object end before their bracket. -/
inductive Break where
  /-- Something stands where a comma is needed. -/
  | noComma
  /-- The bracket follows a comma. -/
  | trailingComma
  /-- Something other than a key stands where a key is needed. -/
  | noKey
  /-- The document ends after a comma. -/
  | endAfterComma
  /-- The document ends where a comma or the bracket is needed. -/
  | endOfText
  /-- The element before could not be read, and nothing after it was. -/
  | lost
  deriving DecidableEq, Repr, Inhabited

/-- The two outcomes of reading a scalar: what it is, and what stops one who skips it. -/
structure Scalar (α : Type) where
  value : Except DocumentFault α
  skipped : Except DocumentFault Unit

mutual

/-- A document. The marks of scalars are the places after them. -/
inductive Document where
  | null (after : Mark)
  | bool (b : Bool) (after : Mark)
  | number (n : Scalar Number) (after : Mark)
  | text (s : Scalar String) (after : Mark)
  | array (before : Mark) (items : Items)
  | object (before : Mark) (members : Members)
  /-- A value that could not be read. -/
  | broken (fault : DocumentFault)

/-- What follows in an array. -/
inductive Items where
  | close (after : Mark)
  /-- An element; `start` is the place after its first byte. -/
  | item (start : Mark) (value : Document) (rest : Items)
  | stop (reason : Break) (mark : Mark)

/-- What follows in an object. -/
inductive Members where
  | close (after : Mark)
  /-- A member; `turn` is the place where the colon should stand. -/
  | member (key : Scalar String) (turn : Mark) (value : Document) (rest : Members)
  | stop (reason : Break) (mark : Mark)

end

/-- The fault of an array that ends early, for one who reads it. -/
def Break.inArray : Break → DocumentCause
  | .noComma => .noCommaInArray
  | .trailingComma => .trailingComma
  | .noKey => .noKey
  | .endAfterComma => .endInValue
  | .endOfText | .lost => .endInArray

/-- The fault of an array that ends early, for one who skips it. -/
def Break.inSkippedArray : Break → DocumentCause
  | .trailingComma => .noValue
  | b => b.inArray

/-- The fault of an array that ends early, for one who has read all the elements that he wanted. -/
def Break.afterArray : Break → DocumentCause
  | .noComma | .endAfterComma => .trailingBytes
  | b => b.inArray

/-- The fault of an object that ends early, for one who reads it. -/
def Break.inObject : Break → DocumentCause
  | .noComma => .noCommaInObject
  | .trailingComma => .trailingComma
  | .noKey => .noKey
  | .endAfterComma => .endInValue
  | .endOfText | .lost => .endInObject

/-- The fault of an object that ends early, for one who skips it. -/
def Break.inSkippedObject : Break → DocumentCause
  | .trailingComma => .noKey
  | .endAfterComma => .endInObject
  | b => b.inObject

/-! ## Section 3 - skipping -/

mutual

/-- Passes over a value and finds the fault that stops this. -/
def Document.skip : Document → Except DocumentFault Unit
  | .null _ | .bool .. => .ok ()
  | .number n _ => n.skipped
  | .text s _ => s.skipped
  | .array _ items => items.skip
  | .object _ members => members.skip
  | .broken fault => .error fault

/-- Passes over the rest of an array. -/
def Items.skip : Items → Except DocumentFault Unit
  | .close _ => .ok ()
  | .item _ value rest =>
    match value.skip with
    | .error fault => .error fault
    | .ok _ => rest.skip
  | .stop reason mark => .error ⟨reason.inSkippedArray, mark⟩

/-- Passes over the rest of an object. -/
def Members.skip : Members → Except DocumentFault Unit
  | .close _ => .ok ()
  | .member key _ value rest =>
    match key.skipped with
    | .error fault => .error fault
    | .ok _ =>
      match value.skip with
      | .error fault => .error fault
      | .ok _ => rest.skip
  | .stop reason mark => .error ⟨reason.inSkippedObject, mark⟩

end

end HotReload
