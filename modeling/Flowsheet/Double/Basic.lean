/-!
# Double-precision numbers

A `Double` is its 64 bits, so structural equality tells the two zeros and the various not-a-numbers
apart. Numeric equality (`==`) does not: the zeros are equal, and a not-a-number equals nothing.

`ofDecimal` rounds a decimal to the nearest double, ties to the even one, in exact arithmetic:
`ofRatio` places the quotient between two neighbouring doubles and rounds once.
-/

namespace Flowsheet

/-- A double-precision number, given by its bits. -/
structure Double where
  /-- Sign, exponent and fraction, from the top. -/
  bits : UInt64

namespace Double

/-- The exponent field. -/
def exponent (d : Double) : Nat := d.bits.toNat >>> 52 % 2048

/-- The fraction field. -/
def fraction (d : Double) : Nat := d.bits.toNat % 1 <<< 52

/-- Whether the sign bit is set. -/
def isNegative (d : Double) : Bool := d.bits.toNat >>> 63 == 1

/-- Whether this is not a number. -/
def isNaN (d : Double) : Bool := d.exponent == 2047 && d.fraction != 0

/-- Whether this is one of the two infinities. -/
def isInfinite (d : Double) : Bool := d.exponent == 2047 && d.fraction == 0

/-- Whether this is one of the two zeros. -/
def isZero (d : Double) : Bool := d.exponent == 0 && d.fraction == 0

/-- Numeric equality. -/
def equal (a b : Double) : Bool :=
  !a.isNaN && !b.isNaN && (a.bits == b.bits || (a.isZero && b.isZero))

instance : BEq Double := ⟨equal⟩

/-- The double with this sign whose other bits are `magnitude`. -/
def ofMagnitude (negative : Bool) (magnitude : Nat) : Double :=
  ⟨UInt64.ofNat (magnitude + if negative then 1 <<< 63 else 0)⟩

/-- The bits of an infinity without the sign. -/
def infinityMagnitude : Nat := 2047 <<< 52

/-- A not-a-number. -/
def nan : Double := ofMagnitude false (infinityMagnitude + 1 <<< 51)

/-! ### Rounding -/

/-- `num / den` to the nearest natural number, a half to the even neighbour. -/
def roundHalfEven (num den : Nat) : Nat :=
  let q := num / den
  let r := num % den
  if 2 * r < den then q
  else if den < 2 * r then q + 1
  else q + q % 2

/-- `num / den` divided by `2 ^ q`, as a fraction of natural numbers. -/
def scaled (num den : Nat) (q : Int) : Nat × Nat :=
  (num <<< (-q).toNat, den <<< q.toNat)

/-- The exponent `e` with `2 ^ e ≤ num / den < 2 ^ (e + 1)`, for a positive fraction. -/
def binaryExponent (num den : Nat) : Int :=
  let e : Int := (Nat.log2 num : Int) - (Nat.log2 den : Int)
  let (n, d) := scaled num den e
  if d ≤ n then e else e - 1

/-- The magnitude of the double nearest to `num / den`, with `infinityMagnitude` past the largest
double. Significands have 53 binary places, and no place is below `2 ^ (-1074)`. -/
def ofRatio (num den : Nat) : Nat :=
  if num = 0 then 0
  else
    let q := max (binaryExponent num den - 52) (-1074)
    let (n, d) := scaled num den q
    min ((q + 1074).toNat <<< 52 + roundHalfEven n d) infinityMagnitude

/-- The number of decimal digits. -/
def digitCount (n : Nat) : Nat := if n = 0 then 0 else (Nat.toDigits 10 n).length

/-- The double nearest to `digits * 10 ^ exponent`, with the sign given. Decimals outside the range
of doubles are settled by their size alone. -/
def ofDecimal (negative : Bool) (digits : Nat) (exponent : Int) : Double :=
  let size : Int := digitCount digits + exponent
  ofMagnitude negative <|
    if digits = 0 ∨ size < -330 then 0
    else if 310 < size then infinityMagnitude
    else ofRatio (digits * Nat.pow 10 exponent.toNat) (Nat.pow 10 (-exponent).toNat)

end Double

end Flowsheet
