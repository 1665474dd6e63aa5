import HotReload.Settings.Reader

/-! # Documents as they are written

    The grammar of documents, stated without a reader.  A document is a value together with
    one of its spellings: the value keeps the bytes of its numbers, texts and keys as they
    stand, and forgets the white space between them.

    The grammar is the one of a reader that skips.  It takes a text whose escapes name no
    character; whether a text names one is a question of its own, see `Denotes`. -/

namespace HotReload

open Document

/-! ## Section 1 - values -/

/-- A value of a document.  Numbers, texts and keys are kept as they are spelled. -/
inductive Json where
  | null
  | bool (b : Bool)
  | number (raw : List UInt8)
  | text (raw : List UInt8)
  | array (items : List Json)
  | object (members : List (List UInt8 × Json))

/-! ## Section 2 - white space and words -/

/-- Whether a byte is white space. -/
def isGap (b : UInt8) : Bool := b = 32 ∨ b = 9 ∨ b = 10 ∨ b = 13

/-- White space between the parts of a document. -/
def Blank (gap : List UInt8) : Prop := ∀ b ∈ gap, isGap b = true

/-- The bytes of a word of ASCII letters. -/
def wordBytes (word : String) : List UInt8 := word.toList.map byteOf

/-! ## Section 3 - numbers -/

/-- A row of digits. -/
structure IsDigits (digits : List UInt8) : Prop where
  nonempty : digits ≠ []
  decimal : ∀ b ∈ digits, isDigit b = true

/-- The digits before the point.  A zero stands alone. -/
structure IsWhole (digits : List UInt8) : Prop extends IsDigits digits where
  leading : digits.head? = some (byteOf '0') → digits = [byteOf '0']

/-- The places after the point, if there is one. -/
inductive IsFraction : List UInt8 → Prop where
  | none : IsFraction []
  | places {digits : List UInt8} (h : IsDigits digits) : IsFraction (byteOf '.' :: digits)

/-- The sign of an exponent, if there is one. -/
inductive IsSign : List UInt8 → Prop where
  | none : IsSign []
  | plus : IsSign [byteOf '+']
  | minus : IsSign [byteOf '-']

/-- The exponent, if there is one. -/
inductive IsExponent : List UInt8 → Prop where
  | none : IsExponent []
  | given {mark : UInt8} {sign digits : List UInt8} (letter : mark = byteOf 'e' ∨ mark = byteOf 'E')
      (signed : IsSign sign) (h : IsDigits digits) : IsExponent (mark :: (sign ++ digits))

/-- A number without its sign. -/
inductive IsUnsigned : List UInt8 → Prop where
  | parts {whole fraction exponent : List UInt8} (h : IsWhole whole) (places : IsFraction fraction)
      (scale : IsExponent exponent) : IsUnsigned (whole ++ (fraction ++ exponent))

/-- The spelling of a number. -/
inductive IsNumber : List UInt8 → Prop where
  | positive {raw : List UInt8} (h : IsUnsigned raw) : IsNumber raw
  | negative {raw : List UInt8} (h : IsUnsigned raw) : IsNumber (byteOf '-' :: raw)

/-- The value of a row of digits. -/
def decimal (digits : List UInt8) : Nat := digits.foldl (fun n b => n * 10 + (b.toNat - 48)) 0

/-- The natural number that is spelled, if one is: digits alone, and not too many of them. -/
def naturalValue (raw : List UInt8) : Option Nat :=
  if raw.all isDigit = true ∧ decimal raw ≤ maxNatural then some (decimal raw) else none

/-! ## Section 4 - texts -/

/-- Four hexadecimal digits and the number that they spell. -/
inductive IsUnit : List UInt8 → Nat → Prop where
  | digits {b₁ b₂ b₃ b₄ : UInt8} {d₁ d₂ d₃ d₄ : Nat} (h₁ : hexDigit? b₁ = some d₁) (h₂ : hexDigit? b₂ = some d₂)
      (h₃ : hexDigit? b₃ = some d₃) (h₄ : hexDigit? b₄ = some d₄) :
      IsUnit [b₁, b₂, b₃, b₄] (((d₁ * 16 + d₂) * 16 + d₃) * 16 + d₄)

/-- An escape, after its backslash. -/
inductive IsEscape : List UInt8 → Prop where
  | letter {b : UInt8} (known : (escaped? b).isSome) : IsEscape [b]
  | unit {digits : List UInt8} {n : Nat} (h : IsUnit digits n) : IsEscape (byteOf 'u' :: digits)

/-- The spelling of a text, between its quotes. -/
inductive IsText : List UInt8 → Prop where
  | empty : IsText []
  | plain {b : UInt8} {raw : List UInt8} (visible : 32 ≤ b) (quote : b ≠ byteOf '"') (backslash : b ≠ byteOf '\\')
      (rest : IsText raw) : IsText (b :: raw)
  | escape {escape raw : List UInt8} (h : IsEscape escape) (rest : IsText raw) :
      IsText (byteOf '\\' :: (escape ++ raw))

/-- An escape, after its backslash, and the character that it stands for. -/
inductive Escapes : List UInt8 → Char → Prop where
  | letter {b : UInt8} {c : Char} (known : escaped? b = some c) : Escapes [b] c
  /-- A character of the first plane. -/
  | unit {digits : List UInt8} {n : Nat} (h : IsUnit digits n) (character : n < 0xD800 ∨ 0xDFFF < n) :
      Escapes (byteOf 'u' :: digits) (Char.ofNat n)
  /-- A character of a higher plane, in two halves. -/
  | pair {front back : List UInt8} {high low : Nat} (h : IsUnit front high) (leading : 0xD800 ≤ high ∧ high ≤ 0xDBFF)
      (h' : IsUnit back low) (trailing : 0xDC00 ≤ low ∧ low ≤ 0xDFFF) :
      Escapes (byteOf 'u' :: (front ++ byteOf '\\' :: byteOf 'u' :: back))
        (Char.ofNat ((high - 0xD800) * 1024 + (low - 0xDC00) + 0x10000))

/-- A text spelled in a way that names characters, and the characters. -/
inductive Denotes : List UInt8 → List Char → Prop where
  | empty : Denotes [] []
  | plain {c : Char} {raw : List UInt8} {cs : List Char} (visible : 32 ≤ c.toNat) (quote : c ≠ '"')
      (backslash : c ≠ '\\') (rest : Denotes raw cs) : Denotes (String.utf8EncodeChar c ++ raw) (c :: cs)
  | escape {escape raw : List UInt8} {c : Char} {cs : List Char} (h : Escapes escape c) (rest : Denotes raw cs) :
      Denotes (byteOf '\\' :: (escape ++ raw)) (c :: cs)

/-! ## Section 5 - spellings -/

/-- What stands before an element: white space, and a comma if it is not the first. -/
inductive Lead : Bool → List UInt8 → Prop where
  | first {gap : List UInt8} (h : Blank gap) : Lead true gap
  | comma {gap gap' : List UInt8} (h : Blank gap) (h' : Blank gap') : Lead false (gap ++ byteOf ',' :: gap')

mutual

/-- The spellings of a value. -/
inductive Json.Spelled : Json → List UInt8 → Prop where
  | null : Json.Spelled .null (wordBytes "null")
  | boolTrue : Json.Spelled (.bool true) (wordBytes "true")
  | boolFalse : Json.Spelled (.bool false) (wordBytes "false")
  | number {raw : List UInt8} (h : IsNumber raw) : Json.Spelled (.number raw) raw
  | text {raw : List UInt8} (h : IsText raw) : Json.Spelled (.text raw) (byteOf '"' :: (raw ++ [byteOf '"']))
  | array {items : List Json} {body : List UInt8} (h : Json.ItemsSpelled true items body) :
      Json.Spelled (.array items) (byteOf '[' :: body)
  | object {members : List (List UInt8 × Json)} {body : List UInt8} (h : Json.MembersSpelled true members body) :
      Json.Spelled (.object members) (byteOf '\x7b' :: body)

/-- The spellings of the elements of an array, with the bracket that closes it. -/
inductive Json.ItemsSpelled : Bool → List Json → List UInt8 → Prop where
  | close {first : Bool} {gap : List UInt8} (h : Blank gap) : Json.ItemsSpelled first [] (gap ++ [byteOf ']'])
  | item {first : Bool} {j : Json} {items : List Json} {lead body tail : List UInt8} (front : Lead first lead)
      (value : Json.Spelled j body) (rest : Json.ItemsSpelled false items tail) :
      Json.ItemsSpelled first (j :: items) (lead ++ (body ++ tail))

/-- The spellings of the members of an object, with the brace that closes it. -/
inductive Json.MembersSpelled : Bool → List (List UInt8 × Json) → List UInt8 → Prop where
  | close {first : Bool} {gap : List UInt8} (h : Blank gap) : Json.MembersSpelled first [] (gap ++ [byteOf '\x7d'])
  | member {first : Bool} {key : List UInt8} {j : Json} {members : List (List UInt8 × Json)}
      {lead gap gap' body tail : List UInt8} (front : Lead first lead) (name : IsText key) (before : Blank gap)
      (after : Blank gap') (value : Json.Spelled j body) (rest : Json.MembersSpelled false members tail) :
      Json.MembersSpelled first ((key, j) :: members)
        (lead ++ byteOf '"' :: (key ++ byteOf '"' :: (gap ++ byteOf ':' :: (gap' ++ (body ++ tail)))))

end

/-- Bytes spell a value, with any white space around it. -/
def Json.WrittenIn (j : Json) (bytes : List UInt8) : Prop :=
  ∃ gap body gap', Blank gap ∧ j.Spelled body ∧ Blank gap' ∧ bytes = gap ++ (body ++ gap')

end HotReload
