import HotReload.Text.Decimal
import HotReload.Text.Quoted
import HotReload.Types.Assembly

/-! # The values of bodies

What variables and fields hold, how values are shown, and when two of them are equal. A map keeps its
entries in the order of their keys.
-/

namespace HotReload.Body

/-- A value. -/
inductive Value where
  | unit
  | bool (b : Bool)
  | int (n : Int)
  | float (x : Float)
  | char (c : Char)
  | string (s : String)
  | array (items : List Value)
  /-- Entries with increasing keys. -/
  | map (entries : List (String × Value))
  | range (first last : Int) (inclusive : Bool)
  | typeRef (ref : TypeRef)
  deriving Inhabited

namespace Value

/-- A value that is written out. -/
def ofLiteral : Literal → Value
  | .unit => .unit
  | .bool b => .bool b
  | .int n => .int n
  | .float x => .float x
  | .char c => .char c
  | .string s => .string s

/-- The name of a value's type in messages. -/
def typeName : Value → String
  | .unit => "()"
  | .bool _ => "bool"
  | .int _ => "i64"
  | .float _ => "f64"
  | .char _ => "char"
  | .string _ => "&str | ImmutableString | String"
  | .array _ => "array"
  | .map _ => "map"
  | .range _ _ false => "range"
  | .range _ _ true => "range="
  | .typeRef _ => "TypeRef"

/-! ## Section 1 - maps -/

/-- Sets the value of a key, in the order of keys. -/
def insert (key : String) (value : Value) : List (String × Value) → List (String × Value)
  | [] => [(key, value)]
  | (k, v) :: more =>
    if key = k then (key, value) :: more
    else if key < k then (key, value) :: (k, v) :: more
    else (k, v) :: insert key value more

/-- The map of some entries, of which the last one with a key counts. -/
def mapOf (entries : List (String × Value)) : Value :=
  .map (entries.foldl (fun m (k, v) => insert k v m) [])

/-- The value of a key, which is unit where the map has none. -/
def entry (entries : List (String × Value)) (key : String) : Value :=
  (entries.lookup key).getD .unit

/-! ## Section 2 - text -/

/-- The least float that is shown with an exponent for its size. -/
def largestPlain : Float := 9999999827968.0

/-- The greatest float that is shown with an exponent for its smallness. -/
def smallestPlain : Float := 9.9999998245167e-14

/-- A float as the text of a value: around a point, or with an exponent for extreme sizes. -/
def floatDisplay (x : Float) : String :=
  floatText "0.0" "inf"
    (fun size d =>
      if size > largestPlain ∨ size < smallestPlain then d.scientific "e" false
      else if d.isWhole then d.positional ++ ".0" else d.positional)
    x

/-- A float inside the text of an array or a map. -/
def floatInside (x : Float) : String :=
  floatText (if x.toBits = 0 then "0.0" else "-0.0") "inf"
    (fun size d =>
      if size < 1e-4 ∨ 1e16 ≤ size then d.scientific "e" false
      else if d.isWhole then d.positional ++ ".0" else d.positional)
    x

/-- Texts with commas between them. -/
def commas (xs : List String) : String := ", ".intercalate xs

mutual

/-- A value inside the text of an array or a map. -/
def inside : Value → String
  | .unit => "()"
  | .bool b => toString b
  | .int n => toString n
  | .float x => floatInside x
  | .char c => quotedChar c
  | .string s => quoted s
  | .array items => "[" ++ commas (insideItems items) ++ "]"
  | .map entries => "#\x7b" ++ commas (insideEntries entries) ++ "\x7d"
  | .range first last inclusive => toString first ++ (if inclusive then "..=" else "..") ++ toString last
  | .typeRef _ => "TypeRef"

/-- The items of an array inside its text. -/
def insideItems : List Value → List String
  | [] => []
  | v :: vs => inside v :: insideItems vs

/-- The entries of a map inside its text. -/
def insideEntries : List (String × Value) → List String
  | [] => []
  | (k, v) :: vs => (quoted k ++ ": " ++ inside v) :: insideEntries vs

end

/-- The text of a value, as it is appended to a string. Unit has none. -/
def display : Value → String
  | .unit => ""
  | .float x => floatDisplay x
  | .char c => String.singleton c
  | .string s => s
  | v => inside v

/-! ## Section 3 - equality -/

/-- Whole numbers as floats. -/
def toFloat? : Value → Option Float
  | .int n => some (Float.ofInt n)
  | .float x => some x
  | _ => none

/-- Whether a character and a string hold the same text. -/
def sameText (c : Char) (s : String) : Bool := s = String.singleton c

mutual

/-- Whether two values are equal. Values of different kinds are not, numbers apart, and a character equals a string
that holds it alone. -/
def same : Value → Value → Bool
  | .unit, .unit => true
  | .bool a, .bool b => a = b
  | .int a, .int b => a = b
  | .float a, .float b => a == b
  | .int a, .float b => Float.ofInt a == b
  | .float a, .int b => a == Float.ofInt b
  | .char a, .char b => a = b
  | .string a, .string b => a = b
  | .char a, .string b => sameText a b
  | .string a, .char b => sameText b a
  | .array a, .array b => sameItems a b
  | .map a, .map b => sameEntries a b
  | .range a b i, .range c d j => a = c && b = d && i = j
  | _, _ => false

/-- Whether two arrays hold equal items. -/
def sameItems : List Value → List Value → Bool
  | [], [] => true
  | a :: as, b :: bs => same a b && sameItems as bs
  | _, _ => false

/-- Whether two maps hold equal entries. -/
def sameEntries : List (String × Value) → List (String × Value) → Bool
  | [], [] => true
  | (k, a) :: as, (l, b) :: bs => k = l && same a b && sameEntries as bs
  | _, _ => false

end

end Value

end HotReload.Body
