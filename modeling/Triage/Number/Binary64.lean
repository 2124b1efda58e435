import Triage.Text.Numeral

/-!
# Binary floating point

The binary64 format as bit patterns of exact dyadic values: rounding a quotient of natural numbers
to the nearest one (ties to even), the exact value of a pattern, the shortest decimal that reads
back, and writing with a fixed number of decimal places.
-/

namespace Triage

/-- A decimal number: sign, digits and a power of ten. -/
structure Decimal where
  negative : Bool
  digits : Nat
  exponent : Int
deriving DecidableEq, Repr

namespace Decimal

/-- Moves trailing zeros of the digits into the exponent, at most `fuel` of them. -/
def trimZeros : Nat → Nat → Int → Nat × Int
  | 0, digits, exponent => (digits, exponent)
  | fuel + 1, digits, exponent =>
    if digits % 10 = 0 then trimZeros fuel (digits / 10) (exponent + 1) else (digits, exponent)

/-- The form in which the digits do not end in zero; zero has exponent zero. -/
def normal (d : Decimal) : Decimal :=
  if d.digits = 0 then ⟨d.negative, 0, 0⟩
  else
    let (digits, exponent) := trimZeros (Text.natDigits d.digits).length d.digits d.exponent
    ⟨d.negative, digits, exponent⟩

/-- Whether the value is a whole number. -/
def isWhole (d : Decimal) : Bool := d.digits = 0 || 0 <= d.normal.exponent

/-- The whole number nearest to zero on the way to the value. -/
def truncate (d : Decimal) : Int :=
  let magnitude : Nat :=
    if 0 <= d.exponent then d.digits * Nat.pow 10 d.exponent.toNat
    else d.digits / Nat.pow 10 (-d.exponent).toNat
  if d.negative then -(magnitude : Int) else magnitude

end Decimal

namespace Binary64

/-- Rounds a nonnegative quotient to a whole number; a half goes to the even neighbour. -/
def roundQuotient (num den : Nat) : Nat :=
  let q := num / den
  let r := num % den
  if 2 * r < den then q
  else if 2 * r > den then q + 1
  else if q % 2 = 0 then q else q + 1

/-- The quotient `num / den` scaled by a power of two: `num / den / 2 ^ scale`, as a fraction. -/
def scaled (num den : Nat) (scale : Int) : Nat × Nat :=
  if 0 <= scale then (num, den * Nat.pow 2 scale.toNat) else (num * Nat.pow 2 (-scale).toNat, den)

/-- The magnitude bits of the value nearest to `num / den`; nothing when it lies beyond the largest
finite value. -/
def nearest? (num den : Nat) : Option UInt64 :=
  if num = 0 then some 0
  else
    let guess : Int := (num.log2 : Int) - (den.log2 : Int) - 52
    let fits (scale : Int) : Bool :=
      let (n, d) := scaled num den scale
      n / d < Nat.pow 2 53
    let scale := if fits (guess - 1) then guess - 1 else if fits guess then guess else guess + 1
    let scale := max scale (-1074)
    let (n, d) := scaled num den scale
    let q := roundQuotient n d
    let (q, scale) := if q = Nat.pow 2 53 then (Nat.pow 2 52, scale + 1) else (q, scale)
    if 971 < scale then none
    else if q < Nat.pow 2 52 then some (UInt64.ofNat q)
    else some (UInt64.ofNat ((scale + 1075).toNat * Nat.pow 2 52 + (q - Nat.pow 2 52)))

/-- A magnitude with a sign. -/
def withSign (negative : Bool) (magnitude : UInt64) : UInt64 :=
  if negative then magnitude ||| 0x8000000000000000 else magnitude

/-- The bits of positive infinity. -/
def infinityBits : UInt64 := 0x7FF0000000000000

/-- The magnitude of a decimal as a fraction.  Decimals far outside the range of the format are
moved to its edges, where they round the same way. -/
def decimalFraction (d : Decimal) : Nat × Nat :=
  let size : Int := (Text.natDigits d.digits).length + d.exponent
  if d.digits = 0 || size < -400 then (0, 1)
  else if 400 < size then (Nat.pow 10 400, 1)
  else if 0 <= d.exponent then (d.digits * Nat.pow 10 d.exponent.toNat, 1)
  else (d.digits, Nat.pow 10 (-d.exponent).toNat)

/-- The value nearest to a decimal; beyond the largest finite value it is infinite. -/
def ofDecimal (d : Decimal) : Float :=
  let (num, den) := decimalFraction d
  Float.ofBits (withSign d.negative ((nearest? num den).getD infinityBits))

/-- The value nearest to a quotient of whole numbers with a positive denominator. -/
def ofRatio? (num : Int) (den : Nat) : Option Float :=
  (nearest? num.natAbs den).map fun bits => Float.ofBits (withSign (num < 0) bits)

/-- The exact value `m * 2 ^ e` of a magnitude. -/
def exactMagnitude (bits : UInt64) : Nat × Int :=
  let n : Nat := bits.toNat % Nat.pow 2 63
  let field : Nat := n / Nat.pow 2 52
  let low := n % Nat.pow 2 52
  if field = 0 then (low, -1074) else (Nat.pow 2 52 + low, (field : Int) - 1075)

/-- A dyadic value as a fraction. -/
def dyadic (m : Nat) (e : Int) : Nat × Nat :=
  if 0 <= e then (m * Nat.pow 2 e.toNat, 1) else (m, Nat.pow 2 (-e).toNat)

/-- The two neighbours of `num / den` on the grid of multiples of `10 ^ power`, as multiples. -/
def gridNeighbours (num den : Nat) (power : Int) : Nat × Nat :=
  let low : Nat :=
    if 0 <= power then num / (den * Nat.pow 10 power.toNat)
    else num * Nat.pow 10 (-power).toNat / den
  (low, low + 1)

/-- The distance of a grid point from `num / den`, in units of a common denominator. -/
def gridDistance (num den : Nat) (power : Int) (point : Nat) : Nat :=
  let scaledPoint := if 0 <= power then point * Nat.pow 10 power.toNat * den else point * den
  let scaledValue := if 0 <= power then num else num * Nat.pow 10 (-power).toNat
  if scaledPoint <= scaledValue then scaledValue - scaledPoint else scaledPoint - scaledValue

/-- Tries grids from coarse to fine until a neighbour of the value reads back. -/
def shortestFrom (bits : UInt64) (num den : Nat) : Nat → Int → Nat × Int
  | 0, power => ((gridNeighbours num den power).1, power)
  | fuel + 1, power =>
    let readsBack (point : Nat) : Bool :=
      (if 0 <= power then nearest? (point * Nat.pow 10 power.toNat) 1
        else nearest? point (Nat.pow 10 (-power).toNat)) == some bits
    let (low, high) := gridNeighbours num den power
    match readsBack low, readsBack high with
    | true, true =>
      let toLow := gridDistance num den power low
      let toHigh := gridDistance num den power high
      if toLow < toHigh || (toLow = toHigh && low % 2 = 0) then (low, power) else (high, power)
    | true, false => (low, power)
    | false, true => (high, power)
    | false, false => shortestFrom bits num den fuel (power - 1)

/-- The decimal with the fewest digits that reads back as a finite value; of those the nearest, and
of two equally near ones the one with an even last digit. -/
def shortest (value : Float) : Decimal :=
  let bits := value.toBits
  let negative := Nat.pow 2 63 <= bits.toNat
  let magnitude := bits &&& 0x7FFFFFFFFFFFFFFF
  if magnitude = 0 then ⟨negative, 0, 0⟩
  else
    let (m, e) := exactMagnitude magnitude
    let (num, den) := dyadic m e
    let top : Int :=
      if den <= num then ((Text.natDigits (num / den)).length : Int)
      else 1 - ((Text.natDigits (den / num)).length : Int)
    let (digits, exponent) := shortestFrom magnitude num den 20 top
    (⟨negative, digits, exponent⟩ : Decimal).normal

/-- The decimal by which a number is shown that is kept as the nearest value; beyond the largest
finite value it stays as it is. -/
def canonical (d : Decimal) : Decimal :=
  let value := ofDecimal d
  if value.isInf then d.normal else shortest value

/-- The whole part of the finite value nearest to a decimal, without its fraction. -/
def wholePart (d : Decimal) : Int :=
  let (num, den) := decimalFraction d
  let (m, e) := exactMagnitude ((nearest? num den).getD 0)
  let (num, den) := dyadic m e
  let magnitude : Nat := num / den
  if d.negative then -(magnitude : Int) else magnitude

/-- The value in decimal with two places, rounded from the exact value; a half goes to the even
neighbour. -/
def twoPlaces (num den : Nat) : String :=
  let hundredths := roundQuotient (num * 100) den
  String.ofList
    (Text.natDigits (hundredths / 100) ++ ['.'] ++ Text.paddedDigits 2 (hundredths % 100))

end Binary64
end Triage
