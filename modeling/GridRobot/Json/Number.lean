import GridRobot.Json.Basic
import GridRobot.Decimal.Shortest

/-!
# What numbers stand for

A numeral without fraction and exponent that fits a signed or an unsigned 64-bit word is an integer.
Every other numeral is a double. The double is computed from a significand of at most 64 bits: digits
that no longer fit are dropped and counted in the exponent, and the significand is then multiplied or
divided once by a power of ten. A numeral too large for a double stands for nothing.
-/

set_option autoImplicit false

namespace GridRobot.Numeral

/-- The largest significand. -/
def significandMax : Nat := 18446744073709551615

/-- Takes the digits of the whole part while the significand fits, and counts those dropped. -/
def takeWhole : List Nat → Nat → Nat × Int
  | [], significand => (significand, 0)
  | d :: ds, significand =>
    if significand * 10 + d ≤ significandMax then takeWhole ds (significand * 10 + d)
    else (significand, (d :: ds).length)

/-- Takes digits after the point while the significand fits; each lowers the exponent. -/
def takeFraction : List Nat → Nat × Int → Nat × Int
  | [], state => state
  | d :: ds, (significand, exponent) =>
    if significand * 10 + d ≤ significandMax then
      takeFraction ds (significand * 10 + d, exponent - 1)
    else (significand, exponent)

/-- The significand and the exponent of ten that the written digits give. -/
def scaled (n : Numeral) : Nat × Int :=
  let whole := (Nat.toDigits 10 n.whole).map fun c => c.toNat - '0'.toNat
  takeFraction n.fraction (takeWhole whole 0)

/-- The double `f * 10 ^ e`, or `none` if it is too large. -/
def scaleFloat (f : Float) (e : Int) : Option Float :=
  let power (k : Nat) : Float := Float.ofScientific 1 false k
  if e > 308 then
    if f == 0 then some f else none
  else if 0 ≤ e then
    let product := f * power e.toNat
    if product.isInf then none else some product
  else if -308 ≤ e then some (f / power (-e).toNat)
  else if -616 ≤ e then some (f / power 308 / power (-(e + 308)).toNat)
  else some 0

/-- The double a numeral stands for, or `none` if it is too large. -/
def toFloat? (n : Numeral) : Option Float :=
  let (significand, exponent) := n.scaled
  let magnitude : Option Float :=
    match n.exponent with
    | none => scaleFloat significand.toUInt64.toFloat exponent
    | some e =>
      if e.natAbs ≤ 2147483647 then scaleFloat significand.toUInt64.toFloat (exponent + e)
      else if significand ≠ 0 ∧ 0 < e then none
      else some 0
  magnitude.map fun f => if n.negative then -f else f

/-- The integer a numeral stands for, if it has neither fraction nor exponent and fits a 64-bit
word. -/
def toWord? (n : Numeral) : Option Int :=
  n.toInt?.filter fun i => -9223372036854775808 ≤ i && i < 18446744073709551616

/-- Whether a numeral stands for a number. -/
def isFinite (n : Numeral) : Bool :=
  n.toWord?.isSome || n.toFloat?.isSome

/-! ## Text of a number -/

/-- The digits of a natural number. -/
def natText (n : Nat) : List Char :=
  Nat.toDigits 10 n

/-- The digits of an integer. -/
def intText : Int → List Char
  | .ofNat n => natText n
  | .negSucc n => '-' :: natText (n + 1)

/-- A decimal without sign. When the first digit counts a power of ten from -5 to 15 it is written
in place, with at least one digit after the point; otherwise with a signed exponent. -/
def decimalText (d : Decimal) : List Char :=
  let digits := natText d.digits
  let leading := d.exponent + digits.length - 1
  if -5 ≤ leading ∧ leading ≤ 15 then
    if 0 ≤ d.exponent then digits ++ List.replicate d.exponent.toNat '0' ++ ['.', '0']
    else if 0 ≤ leading then
      digits.take (leading.toNat + 1) ++ '.' :: digits.drop (leading.toNat + 1)
    else ['0', '.'] ++ List.replicate (-leading - 1).toNat '0' ++ digits
  else
    let mantissa :=
      match digits with
      | [d] => [d]
      | d :: ds => d :: '.' :: ds
      | [] => []
    mantissa ++ 'e' :: (if leading < 0 then intText leading else '+' :: intText leading)

/-- A double. -/
def floatText (f : Float) : List Char :=
  let sign : List Char := if f.toBits ≥ 0x8000000000000000 then ['-'] else []
  let magnitude : List Char :=
    if f == 0 then ['0', '.', '0'] else decimalText (Decimal.shortest (Dyadic.ofBits f.toBits))
  sign ++ magnitude

/-- The text of the number a numeral stands for. -/
def render (n : Numeral) : List Char :=
  match n.toWord? with
  | some i => intText i
  | none =>
    match n.toFloat? with
    | some f => floatText f
    | none => "null".toList

end GridRobot.Numeral
