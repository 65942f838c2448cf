import PixelScript.Decimal.Shortest

/-! Decimal text of doubles. All formats write the shortest digits that read back and
differ only in the decisions that a `Format` holds. -/
namespace PixelScript.Decimal

structure Format where
  /-- Text of positive infinity. -/
  infinity : String
  /-- Whether the sign of a zero is written. -/
  signedZero : Bool
  /-- What follows a whole number. -/
  wholeEnding : String
  /-- Magnitudes from `10 ^ k` on are written with an exponent, and so are those below
  `10 ^ (-j)`, where the field holds `(j, k)`. -/
  positionalRange : Option (Nat × Nat)

def zeros (count : Nat) : String :=
  String.ofList (List.replicate count '0')

/-- Digits around a decimal point, without an exponent. -/
def positional (format : Format) (number : Digits) : String :=
  let digits := toString number.digits
  let places := (-number.exponent).toNat
  if places = 0 then digits ++ zeros number.exponent.toNat ++ format.wholeEnding
  else if places < digits.length then
    let (whole, fraction) := digits.toList.splitAt (digits.length - places)
    String.ofList whole ++ "." ++ String.ofList fraction
  else "0." ++ zeros (places - digits.length) ++ digits

/-- One digit before the point, and an exponent of ten. -/
def scientific (number : Digits) : String :=
  let digits := toString number.digits
  let power := number.exponent + (digits.length - 1 : Nat)
  let (lead, rest) := digits.toList.splitAt 1
  String.ofList lead ++ (if rest.isEmpty then "" else "." ++ String.ofList rest) ++
    "e" ++ toString power

/-- Chooses the notation by the power of ten of the leading digit. -/
def finiteText (format : Format) (number : Digits) : String :=
  let power := number.exponent + ((toString number.digits).length - 1 : Nat)
  match format.positionalRange with
  | some (small, large) =>
    if power < -(small : Int) ∨ (large : Int) ≤ power then scientific number
    else positional format number
  | none => positional format number

def Format.write (format : Format) (x : Float) : String :=
  let sign := if isNegative x then "-" else ""
  match Magnitude.ofFloat x with
  | .notANumber => "NaN"
  | .infinite => sign ++ format.infinity
  | .finite 0 _ => (if format.signedZero then sign else "") ++ "0" ++ format.wholeEnding
  | .finite mantissa exponent => sign ++ finiteText format (shortest mantissa exponent)

/-- Numbers as a script sees them: both zeros alike, infinities in words. -/
def script : Format := ⟨"Infinity", false, "", none⟩

/-- Numbers in messages and token names. -/
def plain : Format := ⟨"inf", true, "", none⟩

/-- Numbers in tree dumps: a whole number keeps `.0`, and an exponent is written below
`0.0001` and from `10 ^ 16` on. -/
def dump : Format := ⟨"inf", true, ".0", some (4, 16)⟩

end PixelScript.Decimal
