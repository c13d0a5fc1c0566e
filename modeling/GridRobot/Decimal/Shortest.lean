/-!
# The shortest decimal of a floating-point number

A finite positive double is `mantissa * 2 ^ exponent`. The reals that round to it form an interval
around it, closed exactly when the mantissa is even. `Decimal.shortest` gives the decimal with the
fewest digits in that interval, and of two such decimals the nearer one; a tie goes to the even
digit. All arithmetic is exact.
-/

set_option autoImplicit false

namespace GridRobot

/-- The number `digits * 10 ^ exponent`. -/
structure Decimal where
  digits : Nat
  exponent : Int
  deriving DecidableEq, Repr

/-- A positive binary floating-point number `mantissa * 2 ^ exponent`. When `narrow` holds, its
lower neighbour is half as far away as its upper one. -/
structure Dyadic where
  mantissa : Nat
  exponent : Int
  narrow : Bool
  deriving DecidableEq, Repr

namespace Dyadic

/-- The magnitude of the finite double with the given bits. -/
def ofBits (bits : UInt64) : Dyadic :=
  let hidden := 4503599627370496
  let biased : Nat := bits.toNat / hidden % 2048
  let fraction : Nat := bits.toNat % hidden
  if biased = 0 then ⟨fraction, -1074, false⟩
  else ⟨hidden + fraction, (biased : Int) - 1075, fraction = 0 && 1 < biased⟩

end Dyadic

namespace Decimal

/-- A number `value` with the interval `low` to `high` of the reals that round to it, all three over
the common denominator `unit`. -/
structure Rounding where
  value : Nat
  low : Nat
  high : Nat
  unit : Nat
  closed : Bool

/-- The interval of the reals that round to a number. -/
def Rounding.ofDyadic (x : Dyadic) : Rounding :=
  let quarter := x.exponent - 2
  let scale := Nat.pow 2 quarter.toNat
  { value := 4 * x.mantissa * scale
    low := (4 * x.mantissa - if x.narrow then 1 else 2) * scale
    high := (4 * x.mantissa + 2) * scale
    unit := Nat.pow 2 (-quarter).toNat
    closed := x.mantissa % 2 = 0 }

/-- The power of ten that the first digit of the number counts. -/
def Rounding.leading (r : Rounding) : Int :=
  if r.unit ≤ r.value then (Nat.toDigits 10 (r.value / r.unit)).length - 1
  else
    let n := (Nat.toDigits 10 (r.unit / r.value)).length
    if r.unit ≤ r.value * Nat.pow 10 (n - 1) then 1 - (n : Int) else -(n : Int)

/-- A decimal of `n` digits that rounds to the number, if there is one. -/
def Rounding.within? (r : Rounding) (n : Nat) : Option Decimal :=
  let place := r.leading + 1 - n
  let up := Nat.pow 10 (-place).toNat
  let unit := r.unit * Nat.pow 10 place.toNat
  let below := r.value * up / unit
  let fits (c : Nat) : Bool :=
    if r.closed then r.low * up ≤ c * unit && c * unit ≤ r.high * up
    else r.low * up < c * unit && c * unit < r.high * up
  let excess := 2 * (r.value * up - below * unit)
  let lowerNearer := excess < unit || (excess = unit && below % 2 = 0)
  if fits below && fits (below + 1) then
    some ⟨if lowerNearer then below else below + 1, place⟩
  else if fits below then some ⟨below, place⟩
  else if fits (below + 1) then some ⟨below + 1, place⟩
  else none

/-- Moves trailing zeros of the digits into the exponent, at most `n` of them. -/
def trim : Nat → Decimal → Decimal
  | 0, d => d
  | n + 1, d =>
    if d.digits ≠ 0 ∧ d.digits % 10 = 0 then trim n ⟨d.digits / 10, d.exponent + 1⟩ else d

/-- The decimal with the fewest digits that rounds to a number; seventeen digits always do. -/
def shortest (x : Dyadic) : Decimal :=
  let r := Rounding.ofDyadic x
  trim 18 (((List.range 17).findSome? fun n => r.within? (n + 1)).getD ⟨0, 0⟩)

end Decimal

end GridRobot
