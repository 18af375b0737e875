import ContestPlatform.Text.Decimal

/-!
# Numerals of JSON

A numeral is kept as it is written, digit by digit, because a reader may refuse one that it does
not need to round: an integer has neither fraction nor exponent, and a numeral is too large when
it would round past the largest double.
-/

namespace ContestPlatform

/-- A number as it is written. -/
structure Numeral where
  /-- There is a minus sign. -/
  negative : Bool
  /-- The digits before the point. -/
  whole : List Char
  /-- The digits after the point; none if there is no point. -/
  fraction : List Char
  /-- The sign (true for minus) and the digits of the exponent, if there is one. -/
  exponent : Option (Bool × List Char)
deriving DecidableEq, Inhabited

namespace Numeral

/-- The numeral of an integer. -/
def ofInt (n : Int) : Numeral :=
  ⟨n < 0, Text.Decimal.ofNat n.natAbs, [], none⟩

/-- The written number. -/
def render (n : Numeral) : List Char :=
  (if n.negative then ['-'] else []) ++ n.whole ++
    (if n.fraction.isEmpty then [] else '.' :: n.fraction) ++
    match n.exponent with
    | none => []
    | some (negative, ds) => 'e' :: (if negative then ['-'] else []) ++ ds

/-- The value of a numeral without fraction and exponent. Minus zero is not an integer. -/
def int? (n : Numeral) : Option Int :=
  if n.fraction.isEmpty && n.exponent.isNone then
    let value := Nat.ofDigitChars 10 n.whole 0
    if n.negative then if value = 0 then none else some (-(value : Int)) else some value
  else none

/-! ## Too large for a double -/

/-- The greatest number of bits of the digits that are kept exactly. -/
def keptBits : Nat := 64

/-- The digits that are kept: those before the value would need more than 64 bits. The rest only
    move the point; the count is the number of digits that are left out. -/
def keep : Nat → List Char → Nat × List Char
  | value, [] => (value, [])
  | value, d :: ds =>
    let next := 10 * value + (d.toNat - 48)
    if 1 <<< keptBits ≤ next then (value, d :: ds) else keep next ds

/-- A natural number rounded to 53 bits, a tie to the even neighbour. -/
def toDouble (n : Nat) : Nat :=
  if n < 1 <<< 53 then n
  else
    let shift := n.log2 - 52
    let unit := 1 <<< shift
    let q := n / unit
    let r := n % unit
    let up := unit < 2 * r || (unit == 2 * r && q % 2 == 1)
    (if up then q + 1 else q) * unit

/-- The least number that rounds past the largest double. -/
def beyondDouble : Nat := (1 <<< 1024) - (1 <<< 970)

/-- The digits kept and the power of ten that they are scaled by. -/
def scaled (n : Numeral) : Nat × Int :=
  let (value, left) := keep 0 n.whole
  let (value, left, after) :=
    if left.isEmpty then
      let (value, rest) := keep value n.fraction
      (value, 0, n.fraction.length - rest.length)
    else (value, left.length, 0)
  let exponent : Int := match n.exponent with
    | none => 0
    | some (negative, ds) =>
      let e := Nat.ofDigitChars 10 ds 0
      if negative then -(e : Int) else e
  (value, left - after + exponent)

/-- The numeral is too large to be read as a double. -/
def overflows (n : Numeral) : Bool :=
  let (value, power) := n.scaled
  if value = 0 || power < 0 then false
  else if 308 < power then true
  else beyondDouble ≤ toDouble value * toDouble (Nat.pow 10 power.toNat)

end Numeral

end ContestPlatform
