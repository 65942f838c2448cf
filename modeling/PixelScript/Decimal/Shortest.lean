import PixelScript.Decimal.Magnitude

/-! The shortest decimal that reads back as a given double. The reals that round to
a double form an interval around it, closed exactly if the mantissa is even. Decimal
grids are tried from coarse to fine: on the first grid with a point of the interval
next to the value, the nearer of the two neighbours is taken, and a tie goes up. -/
namespace PixelScript.Decimal

/-- A positive decimal `digits * 10 ^ exponent`. -/
structure Digits where
  digits : Nat
  exponent : Int
deriving DecidableEq

/-- A value and the ends of its rounding interval, as numerators over one denominator. -/
structure Interval where
  low : Nat
  value : Nat
  high : Nat
  denominator : Nat
  closed : Bool

/-- The reals that round to `mantissa * 2 ^ exponent`. Below a power of two the next
double is only half as far, except at the smallest exponent. -/
def Interval.around (mantissa : Nat) (exponent : Int) : Interval :=
  let nearBelow := mantissa = Nat.pow 2 52 ∧ exponent ≠ minExponent
  let scale := Nat.pow 2 (exponent - 2).toNat
  { low := (4 * mantissa - (if nearBelow then 1 else 2)) * scale
    value := 4 * mantissa * scale
    high := (4 * mantissa + 2) * scale
    denominator := Nat.pow 2 (2 - exponent).toNat
    closed := mantissa % 2 = 0 }

/-- Whether `point`, over the denominator, lies in the interval. -/
def Interval.contains (range : Interval) (point : Nat) : Bool :=
  if range.closed then decide (range.low ≤ point ∧ point ≤ range.high)
  else decide (range.low < point ∧ point < range.high)

/-- The neighbour of the value on the grid of multiples of `10 ^ exponent` that lies in
the interval, if there is one. -/
def Interval.onGrid? (range : Interval) (exponent : Int) : Option Nat :=
  let unit := range.denominator * Nat.pow 10 exponent.toNat
  let scale := Nat.pow 10 (-exponent).toNat
  let below := range.value * scale / unit
  let scaled : Interval :=
    { range with
      low := range.low * scale
      value := range.value * scale
      high := range.high * scale }
  let down := scaled.contains (below * unit)
  let up := scaled.contains ((below + 1) * unit)
  if up && (!down || (2 * below + 1) * unit ≤ 2 * scaled.value) then some (below + 1)
  else if down then some below
  else none

/-- Tries `grids` grids, from `10 ^ exponent` downwards. -/
def Interval.shortestFrom (range : Interval) : (grids : Nat) → (exponent : Int) → Digits
  | 0, exponent =>
    ⟨range.value * Nat.pow 10 (-exponent).toNat /
      (range.denominator * Nat.pow 10 exponent.toNat), exponent⟩
  | grids + 1, exponent =>
    match range.onGrid? exponent with
    | some digits => ⟨digits, exponent⟩
    | none => range.shortestFrom grids (exponent - 1)

/-- A power of ten at or above `mantissa * 2 ^ exponent`; `1233 / 4096` is just below
the decimal logarithm of two. -/
def powerAbove (mantissa : Nat) (exponent : Int) : Int :=
  (mantissa.log2 + 1 + exponent) * 1233 / 4096 + 2

/-- The shortest decimal for a positive `mantissa * 2 ^ exponent`. Seventeen digits
always suffice, so twenty-four grids do. -/
def shortest (mantissa : Nat) (exponent : Int) : Digits :=
  (Interval.around mantissa exponent).shortestFrom 24 (powerAbove mantissa exponent)

end PixelScript.Decimal
