/-! # Decimal text of floats

A finite float is a whole number times a power of two. Its text is made of the fewest decimal digits
that read back as the same float: for one digit, two digits, and so on, the two decimal neighbours of
the value are tried, and the first that lies in the interval of reals that round to the float is
taken, the nearer one if both do. All arithmetic is exact.

How the digits are laid out is a separate question: `positional` writes them around a point and
`scientific` with an exponent.
-/

namespace HotReload

/-- A finite float, as a whole number times a power of two. -/
structure Binary where
  negative : Bool
  mantissa : Nat
  power : Int
  deriving DecidableEq, Repr, Inhabited

/-- The mantissa of a power of two, `2 ^ 52`. -/
def Binary.leading : Nat := 4503599627370496

/-- The parts of a finite float: the sign bit, eleven bits of exponent and the rest of the mantissa. -/
def Binary.ofFloat? (x : Float) : Option Binary :=
  let bits := x.toBits.toNat
  let exponent : Nat := bits / leading % 2048
  let fraction : Nat := bits % leading
  let negative := decide (bits / 9223372036854775808 = 1)
  if exponent = 2047 then none
  else if exponent = 0 then some ⟨negative, fraction, -1074⟩
  else some ⟨negative, fraction + leading, (exponent : Int) - 1075⟩

/-- A decimal: digits `d₁d₂…` that stand for `d₁.d₂… × 10 ^ exponent`. -/
structure Decimal where
  digits : List Char
  exponent : Int
  deriving DecidableEq, Repr, Inhabited

namespace Decimal

/-- The number of decimal places by which `num / den`, below one, has to be shifted to reach one. -/
def shiftToOne (num den : Nat) : Nat → Nat
  | 0 => 0
  | fuel + 1 => if den ≤ num then 0 else shiftToOne (num * 10) den fuel + 1

/-- The decimal exponent `k` with `10 ^ (k - 1) ≤ num / den < 10 ^ k`. -/
def magnitude (num den : Nat) : Int :=
  if den ≤ num then ((num / den).repr.length : Int) else 1 - (shiftToOne num den 400 : Int)

/-- The first of `n`, `n + 1`, … digits that read back. `low` and `high` bound the reals that round
to the value, and belong to them when `closed` is set. All three are over `den`. -/
def search (num low high den : Nat) (closed : Bool) (k : Int) (n : Nat) : Nat → Nat × Int
  | 0 => (num, 0)
  | fuel + 1 =>
    let unit : Int := k - n
    -- The values and the unit as whole numbers over one denominator.
    let up := if unit < 0 then Nat.pow 10 unit.natAbs else 1
    let step := if unit < 0 then den else den * Nat.pow 10 unit.natAbs
    let inside (c : Nat) : Bool :=
      let x := c * step
      if closed then low * up ≤ x && x ≤ high * up else low * up < x && x < high * up
    let below := num * up / step
    let above := below + 1
    match inside below, inside above with
    | true, true =>
      if num * up - below * step ≤ above * step - num * up then (below, unit) else (above, unit)
    | true, false => (below, unit)
    | false, true => (above, unit)
    | false, false => search num low high den closed k (n + 1) fuel

/-- The fewest digits that read back as a positive float. -/
def shortest (b : Binary) : Decimal :=
  let four := 4 * b.mantissa
  let narrow := b.mantissa = Binary.leading ∧ b.power ≠ -1074
  let low := if narrow then four - 1 else four - 2
  let high := four + 2
  let q := b.power - 2
  let scale := if q < 0 then 1 else Nat.pow 2 q.natAbs
  let den := if q < 0 then Nat.pow 2 q.natAbs else 1
  let num := four * scale
  let (c, unit) :=
    search num (low * scale) (high * scale) den (b.mantissa % 2 = 0) (magnitude num den) 1 17
  let digits := c.repr.toList
  let trimmed := (digits.reverse.dropWhile (· = '0')).reverse
  ⟨trimmed, unit + digits.length - 1⟩

/-- Digits around a point, with zeros where the digits do not reach it. -/
def positional (d : Decimal) : String :=
  let n := d.digits.length
  if d.exponent < 0 then
    String.ofList ('0' :: '.' :: List.replicate (d.exponent.natAbs - 1) '0' ++ d.digits)
  else
    let whole := d.exponent.natAbs + 1
    if n ≤ whole then String.ofList (d.digits ++ List.replicate (whole - n) '0')
    else String.ofList (d.digits.take whole ++ '.' :: d.digits.drop whole)

/-- Whether the decimal is a whole number. -/
def isWhole (d : Decimal) : Bool := (d.digits.length : Int) ≤ d.exponent + 1

/-- One digit, the others after a point, and the exponent after `mark`, with a sign for a positive one if `plus` is set. -/
def scientific (mark : String) (plus : Bool) (d : Decimal) : String :=
  let (first, rest) := (d.digits.take 1, d.digits.drop 1)
  let point := if rest.isEmpty then [] else '.' :: rest
  let sign := if plus ∧ 0 ≤ d.exponent then "+" else ""
  String.ofList (first ++ point) ++ mark ++ sign ++ toString d.exponent

end Decimal

/-- Writes a float: `layout` writes a positive finite one, and zero is written as `zero`. -/
def floatText (zero infinite : String) (layout : Float → Decimal → String) (x : Float) : String :=
  match Binary.ofFloat? x with
  | none => if x == x then (if x < 0 then "-" else "") ++ infinite else "NaN"
  | some b =>
    if b.mantissa = 0 then zero
    else (if b.negative then "-" else "") ++ layout x.abs (Decimal.shortest b)

end HotReload
