import Flowsheet.Document.Event

/-!
# What a plain scalar means

A scalar without quotes is tried as null, truth value, whole number and number with a fraction, in
this order, and is a text if it is none of them. Null and truth values may be written in any case.
Whole numbers are decimal, or have one of the marks `0x`, `0o` and `0b` in either case, and may have
underscores in them; what does not fit 64 bits is no whole number. A number that is not finite
becomes a text. White space around a truth value or number does not count.
-/

namespace Flowsheet.Yaml.Plain

/-- A character in lower case, for ASCII letters. -/
def lower (cs : List Char) : List Char := cs.map Char.toLower

/-- Whether a scalar means null. -/
def isNull (cs : List Char) : Bool :=
  cs.isEmpty || cs == ['~'] || lower cs == "null".toList

/-- The truth value that a scalar means. -/
def bool? (cs : List Char) : Option Bool :=
  let word := String.ofList (lower cs)
  if ["true", "yes", "y", "on"].contains word then some true
  else if ["false", "no", "n", "off"].contains word then some false
  else none

/-- White space characters outside the two ranges of `isSpace`. -/
def otherSpaces : List Char :=
  [' ', '\u0085', '\u00a0', '\u1680', '\u2028', '\u2029', '\u202f', '\u205f', '\u3000']

/-- A white space character. -/
def isSpace (c : Char) : Bool :=
  ('\t' ≤ c && c ≤ '\r') || ('\u2000' ≤ c && c ≤ '\u200a') || otherSpaces.contains c

/-- A scalar without the white space around it. -/
def trim (cs : List Char) : List Char :=
  ((cs.dropWhile isSpace).reverse.dropWhile isSpace).reverse

/-- A scalar without its sign, and whether the sign was a minus. -/
def unsign : List Char → Bool × List Char
  | '-' :: cs => (true, cs)
  | '+' :: cs => (false, cs)
  | cs => (false, cs)

/-! ### Whole numbers -/

/-- The value of a digit in a base. -/
def digit? (base : Nat) (c : Char) : Option Nat :=
  let value :=
    if c.isDigit then some (c.toNat - '0'.toNat)
    else if 'a' ≤ c ∧ c ≤ 'f' then some (c.toNat - 'a'.toNat + 10)
    else if 'A' ≤ c ∧ c ≤ 'F' then some (c.toNat - 'A'.toNat + 10)
    else none
  value.filter (· < base)

/-- The number that digits stand for after those that make up `acc`, of which there is one if `seen`
holds. Underscores do not count. -/
def digits? (base acc : Nat) (seen : Bool) : List Char → Option Nat
  | [] => if seen then some acc else none
  | '_' :: cs => digits? base acc seen cs
  | c :: cs => (digit? base c).bind fun d => digits? base (acc * base + d) true cs

/-- The base that the letter behind a leading zero stands for. -/
def base? : Char → Option Nat
  | 'x' | 'X' => some 16
  | 'o' | 'O' => some 8
  | 'b' | 'B' => some 2
  | _ => none

/-- The whole number that a scalar without sign means. -/
def natural? : List Char → Option Nat
  | '0' :: c :: cs =>
    match base? c with
    | some base => digits? base 0 false cs
    | none => digits? 10 0 true (c :: cs)
  | cs => digits? 10 0 false cs

/-- The whole number that a scalar means, if it fits 64 bits, with a sign where it is negative. -/
def integer? (cs : List Char) : Option Event :=
  let (negative, body) := unsign cs
  (natural? body).bind fun n =>
    if negative then
      if Int64.minValue.toInt ≤ -(n : Int) then some (.signed (Int64.ofInt (-(n : Int)))) else none
    else if (n : Int) ≤ Int64.maxValue.toInt then some (.signed (Int64.ofNat n))
    else if n < UInt64.size then some (.unsigned (UInt64.ofNat n))
    else none

/-! ### Numbers with a fraction -/

/-- The exponent after its mark. -/
def exponent? (cs : List Char) : Option Int :=
  let (negative, body) := unsign cs
  if body.isEmpty || !body.all Char.isDigit then none
  else
    let n : Nat := body.foldl (fun acc c => acc * 10 + (c.toNat - '0'.toNat)) 0
    some (if negative then -(n : Int) else n)

/-- Digits with an optional point and exponent: all digits as one number, and the place of the last
one. -/
def decimal? (cs : List Char) : Option (Nat × Int) :=
  let whole := cs.takeWhile Char.isDigit
  let afterWhole := cs.dropWhile Char.isDigit
  let (part, rest) := match afterWhole with
    | '.' :: r => (r.takeWhile Char.isDigit, r.dropWhile Char.isDigit)
    | r => ([], r)
  let digits := (whole ++ part).foldl (fun acc c => acc * 10 + (c.toNat - '0'.toNat)) 0
  if whole.isEmpty && part.isEmpty then none
  else match rest with
    | [] => some (digits, -(part.length : Int))
    | c :: r =>
      if c == 'e' || c == 'E' then (exponent? r).map fun e => (digits, e - part.length) else none

/-- The text that stands for a number that is not finite. -/
def nonFinite (d : Double) : String :=
  if d.isNaN then ".nan" else if d.isNegative then "-.inf" else ".inf"

/-- The number that a scalar means, or the text of one that is not finite. -/
def float? (cs : List Char) : Option Event :=
  let (negative, body) := unsign cs
  let word := String.ofList (lower body)
  if ["nan", ".nan"].contains word then some (.text ".nan")
  else if ["inf", ".inf", "infinity"].contains word then
    some (.text (if negative then "-.inf" else ".inf"))
  else
    (decimal? body).map fun (digits, exponent) =>
      let d := Double.ofDecimal negative digits exponent
      if d.isInfinite || d.isNaN then .text (nonFinite d) else .double d

/-- What a plain scalar means. -/
def meaning (text : String) : Event :=
  let cs := text.toList
  if isNull cs then .unit
  else
    let word := trim cs
    match bool? word with
    | some b => .bool b
    | none => ((integer? word).or (float? word)).getD (.text text)

end Flowsheet.Yaml.Plain
