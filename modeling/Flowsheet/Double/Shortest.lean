import Flowsheet.Double.Basic

/-!
# The shortest decimal of a double

A finite positive double is `m * 2 ^ q`. The decimals that read back to it fill the interval from
halfway to the double below to halfway to the double above, its ends included exactly when `m` is
even. `shortest` looks for the fewest digits in that interval: on the grid of one digit, two digits
and so on it tries the two neighbours of the value, and of two hits it takes the nearer one, the
upper one where they are equally near.

`text` writes those digits positionally, without an exponent and without a fraction of zero.
-/

namespace Flowsheet.Double

/-- A positive number `significand * 2 ^ scale` between its neighbours. -/
structure Binary where
  /-- The significand. -/
  significand : Nat
  /-- The exponent of two. -/
  scale : Int
  /-- Whether the gap below is half the gap above. -/
  narrowBelow : Bool

/-- The value of a finite double without its sign. -/
def toBinary (d : Double) : Binary :=
  if d.exponent = 0 then ⟨d.fraction, -1074, false⟩
  else ⟨1 <<< 52 + d.fraction, (d.exponent : Int) - 1075, d.fraction == 0 && d.exponent > 1⟩

/-- A decimal `digits * 10 ^ exponent`. -/
structure Decimal where
  /-- The digits, read as one number. -/
  digits : Nat
  /-- The place of the last digit. -/
  exponent : Int
  deriving DecidableEq, Repr

namespace Binary

/-- Compares `a * 10 ^ i` with `n * 2 ^ j`. -/
def compareScaled (a : Nat) (i : Int) (n : Nat) (j : Int) : Ordering :=
  compare ((a * Nat.pow 10 i.toNat) <<< (-j).toNat) (n <<< j.toNat * Nat.pow 10 (-i).toNat)

/-- Whether a decimal lies among the reals that round to this value. -/
def readsBack (x : Binary) (d : Decimal) : Bool :=
  let low := if x.narrowBelow then 4 * x.significand - 1 else 4 * x.significand - 2
  let high := 4 * x.significand + 2
  let closed := x.significand % 2 == 0
  let atLow := compareScaled d.digits d.exponent low (x.scale - 2)
  let atHigh := compareScaled d.digits d.exponent high (x.scale - 2)
  (atLow == .gt || (closed && atLow == .eq)) && (atHigh == .lt || (closed && atHigh == .eq))

/-- The value divided by `10 ^ e`, as a fraction of natural numbers. -/
def unscaled (x : Binary) (e : Int) : Nat × Nat :=
  (x.significand <<< x.scale.toNat * Nat.pow 10 (-e).toNat,
    1 <<< (-x.scale).toNat * Nat.pow 10 e.toNat)

/-- The number `k` with `10 ^ (k - 1) ≤ x < 10 ^ k`, for a positive value: the binary logarithm
gives it up to a few steps. -/
def decimalSize (x : Binary) : Int :=
  let guess : Int := ((Nat.log2 x.significand : Int) + x.scale) * 30103 / 100000 - 1
  let step (k : Int) : Int :=
    let (n, d) := x.unscaled k
    if d ≤ n then k + 1 else k
  step (step (step (step guess)))

/-- The decimal with the last place at `10 ^ e` that stands for this value, if one reads back. -/
def onGrid (x : Binary) (e : Int) : Option Decimal :=
  let (n, d) := x.unscaled e
  let below : Decimal := ⟨n / d, e⟩
  let above : Decimal := ⟨n / d + 1, e⟩
  match x.readsBack below, x.readsBack above with
  | true, true => some (if 2 * (n % d) < d then below else above)
  | true, false => some below
  | false, true => some above
  | false, false => none

/-- The exact value as a decimal. -/
def exact (x : Binary) : Decimal :=
  ⟨x.significand <<< x.scale.toNat * Nat.pow 5 (-x.scale).toNat, min x.scale 0⟩

/-- The decimal with the fewest digits that reads back; seventeen digits suffice. -/
def shortest (x : Binary) : Decimal :=
  let k := x.decimalSize
  (((List.range 17).map fun (i : Nat) => k - 1 - (i : Int)).findSome? x.onGrid).getD x.exact

end Binary

/-! ### Layout -/

/-- A list of digits without the zeros at its end. -/
def dropTrailingZeros (digits : List Char) : List Char :=
  (digits.reverse.dropWhile (· == '0')).reverse

/-- A decimal written positionally. -/
def Decimal.text (d : Decimal) : String :=
  let digits := Nat.toDigits 10 d.digits
  if 0 ≤ d.exponent then
    String.ofList (digits ++ List.replicate d.exponent.toNat '0')
  else
    let places := (-d.exponent).toNat
    let padded := List.replicate (places + 1 - digits.length) '0' ++ digits
    let whole := padded.take (padded.length - places)
    let part := dropTrailingZeros (padded.drop (padded.length - places))
    String.ofList (if part.isEmpty then whole else whole ++ '.' :: part)

/-- The written form of a double. -/
def text (d : Double) : String :=
  if d.isNaN then "NaN"
  else
    (if d.isNegative then "-" else "")
      ++ (if d.isInfinite then "inf" else if d.isZero then "0" else d.toBinary.shortest.text)

end Flowsheet.Double
