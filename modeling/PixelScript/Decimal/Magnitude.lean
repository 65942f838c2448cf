/-! Doubles taken apart. The sign bit is kept aside, and a finite magnitude is an
exact `mantissa * 2 ^ exponent`, so decimal text is computed without rounding. -/
namespace PixelScript.Decimal

/-- The absolute value of a double. -/
inductive Magnitude where
  | notANumber
  | infinite
  | finite (mantissa : Nat) (exponent : Int)

/-- Exponent of the smallest positive double, shared by zero and the subnormals. -/
def minExponent : Int := -1074

def isNegative (x : Float) : Bool :=
  decide (Nat.pow 2 63 ≤ x.toBits.toNat)

namespace Magnitude

/-- Reads the eleven exponent bits and the fifty-two fraction bits. -/
def ofFloat (x : Float) : Magnitude :=
  let bits := x.toBits.toNat % Nat.pow 2 63
  let fraction := bits % Nat.pow 2 52
  let biased := bits / Nat.pow 2 52
  if biased = 2047 then
    if fraction = 0 then infinite else notANumber
  else if biased = 0 then finite fraction minExponent
  else finite (Nat.pow 2 52 + fraction) (minExponent + (biased - 1 : Nat))

end Magnitude
end PixelScript.Decimal
