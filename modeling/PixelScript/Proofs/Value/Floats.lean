import PixelScript.Proofs.Value.Numbers

/-! Packed numbers. Unpacking undoes packing up to the largest number, so finite numbers are
ordered and added by their values in units. Small integers are converted exactly, and a step by
one never leaves the finite numbers. -/
namespace PixelScript
open Float.Model Float.Model.UnpackedFloat

namespace Number

/-- The largest finite number in units. -/
def largest : Nat := (2 ^ 53 - 1) * 2 ^ 2045

/-- The numbers that have a packed form of their own. -/
structure Fits (x : UnpackedFloat) : Prop where
  regular : Regular x
  size : (unpackedUnits x).natAbs ≤ largest

section Unpacking

variable {m k : Nat}

/-- A bound with the largest mantissa bounds the exponent only. -/
theorem magnitude_le_iff (bits : m < 2 ^ 53) (leading : 2 ^ 52 ≤ m ∨ k = 0) (most : Nat) :
    m * 2 ^ k ≤ (2 ^ 53 - 1) * 2 ^ most ↔ k ≤ most := by
  constructor
  · intro fits
    by_contra more
    exact (magnitude_lt (by decide) leading (Nat.lt_of_not_le more)).not_ge fits
  · intro low
    exact Nat.mul_le_mul (Nat.le_sub_one_of_lt bits) (Nat.pow_le_pow_right Nat.two_pos low)

theorem Fits.of_exponent (sign : Sign) {exponent : Int} (positive : 0 < m) (bits : m < 2 ^ 53)
    (leading : 2 ^ 52 ≤ m ∨ k = 0) (low : k ≤ 2045) (eq : exponent = k - 1074) :
    Fits (.finite sign m exponent positive) := by
  subst eq
  refine ⟨.finite sign positive bits leading, ?_⟩
  rw [natAbs_units]
  exact (magnitude_le_iff bits leading 2045).mpr low

theorem toNat_leading (mantissa : BitVec 52) :
    (1#1 ++ mantissa).toNat = 2 ^ 52 + mantissa.toNat := by
  rw [BitVec.toNat_append, ← Nat.shiftLeft_add_eq_or_of_lt mantissa.isLt]
  rfl

/-- Exponents that are neither the least nor the largest belong to mantissas of 53 bits, of which
the leading one is not stored. -/
theorem unpack_fits {packed : BitVec 64}
    (finite : (UnpackedFloat.unpack .binary64 packed).isFinite) :
    Fits (UnpackedFloat.unpack .binary64 packed) := by
  have bits : (@unpackMantissa .binary64 packed).toNat < 2 ^ 52 :=
    (@unpackMantissa .binary64 packed).isLt
  have low : (@unpackExponent .binary64 packed).toNat < 2 ^ 11 :=
    (@unpackExponent .binary64 packed).isLt
  revert finite
  rw [UnpackedFloat.unpack]
  dsimp only
  split
  next => split <;> exact fun finite => absurd finite Bool.false_ne_true
  next nonmaximal =>
    intro _
    split
    next none =>
      split
      next => exact ⟨.zero _, Nat.zero_le _⟩
      next =>
        refine Fits.of_exponent (k := 0) _ _ (by omega) (.inr rfl) (Nat.zero_le _) ?_
        rw [none]
        rfl
    next some =>
      have lead := toNat_leading (@unpackMantissa .binary64 packed)
      have below : (@unpackExponent .binary64 packed).toNat ≠ 2 ^ 11 - 1 := fun maximal =>
        nonmaximal (BitVec.eq_of_toNat_eq maximal)
      have above : (@unpackExponent .binary64 packed).toNat ≠ 0 := fun zero =>
        some (BitVec.eq_of_toNat_eq zero)
      refine Fits.of_exponent (k := (@unpackExponent .binary64 packed).toNat - 1) _ _
        ?_ (.inl ?_) (by omega) ?_
      · refine lead.trans_lt ?_
        omega
      · exact (Nat.le_add_right ..).trans_eq lead.symm
      · change _ - ((1023 : Nat) + (52 : Nat) : Int) = _
        omega

end Unpacking

section Packing

variable {sign : Sign} {exponent : BitVec 11} {mantissa : BitVec 52}

theorem unpackSign_packComponents :
    Sign.ofBitVec (unpackSign (packComponents .binary64 sign exponent mantissa)) = sign := by
  simp only [unpackSign, packComponents, BitVec.extractLsb]
  rw [BitVec.extractLsb'_append_eq_of_le (by decide),
    BitVec.extractLsb'_append_eq_of_le (by decide)]
  cases sign <;> rfl

theorem unpack_normal (above : 0 < exponent.toNat) (below : exponent.toNat < 2 ^ 11 - 1) :
    UnpackedFloat.unpack .binary64 (packComponents .binary64 sign exponent mantissa) =
      .finite sign (2 ^ 52 + mantissa.toNat) (exponent.toNat - 1075) (by omega) := by
  have nonzero : exponent ≠ 0#11 := fun zero => above.ne' (congrArg BitVec.toNat zero)
  have nonmaximal : exponent ≠ -1#11 := fun maximal => below.ne (congrArg BitVec.toNat maximal)
  rw [UnpackedFloat.unpack]
  dsimp only
  simp only [unpackExponent_packComponents, unpackMantissa_packComponents,
    unpackSign_packComponents]
  rw [if_neg nonmaximal, if_neg nonzero]
  exact UnpackedFloat.finite.injEq .. ▸ ⟨rfl, toNat_leading mantissa, rfl⟩

theorem unpack_subnormal (solid : 0 < mantissa.toNat) :
    UnpackedFloat.unpack .binary64 (packComponents .binary64 sign 0#11 mantissa) =
      .finite sign mantissa.toNat (-1074) solid := by
  have nonzero : mantissa ≠ 0#52 := fun zero => solid.ne' (congrArg BitVec.toNat zero)
  rw [UnpackedFloat.unpack]
  dsimp only
  simp only [unpackExponent_packComponents, unpackMantissa_packComponents,
    unpackSign_packComponents]
  rw [if_neg (by decide), if_pos trivial, dif_neg nonzero]
  rfl

/-- Unpacking undoes packing. -/
theorem unpack_pack {x : UnpackedFloat} (fits : Fits x) :
    UnpackedFloat.unpack .binary64 (UnpackedFloat.pack .binary64 x) = x := by
  obtain ⟨regular, size⟩ := fits
  cases regular with
  | zero sign => cases sign <;> rfl
  | @finite sign m k positive bits leading =>
    rw [natAbs_units, largest, magnitude_le_iff bits leading] at size
    have biased : ((k : Int) - 1074 + Format.binary64.exponentBias +
        Format.binary64.mantissaBitsWithoutImplicit).toNat = k + 1 := by
      change ((k : Int) - 1074 + (1023 : Nat) + (52 : Nat)).toNat = k + 1
      omega
    have narrow : ¬ 2 ^ Format.binary64.exponentBits ≤ k + 1 + 1 := by
      change ¬ 2 ^ 11 ≤ k + 1 + 1
      omega
    rw [UnpackedFloat.pack]
    dsimp only
    rw [biased, if_neg narrow]
    split
    next full =>
      have most : 2 ^ 52 ≤ m :=
        (Nat.le_log2 positive.ne').mp (Nat.le_of_eq (Nat.succ.inj full).symm)
      have stored : (BitVec.ofNat 11 (k + 1)).toNat = k + 1 := by
        rw [BitVec.toNat_ofNat, Nat.mod_eq_of_lt (by omega)]
      have rest : (BitVec.ofNat 52 m).toNat = m - 2 ^ 52 := by
        rw [BitVec.toNat_ofNat]
        omega
      refine (unpack_normal (by omega) (by omega)).trans ?_
      exact UnpackedFloat.finite.injEq .. ▸ ⟨rfl, by omega, by omega⟩
    next short =>
      have differ : m.log2 + 1 ≠ 53 := short
      have bound : m.log2 < 53 := (Nat.log2_lt positive.ne').mpr bits
      have less : m < 2 ^ 52 := (Nat.log2_lt positive.ne').mp (by omega)
      have none : k = 0 := by omega
      have rest : (BitVec.ofNat 52 m).toNat = m := by
        rw [BitVec.toNat_ofNat]
        omega
      subst none
      refine (unpack_subnormal (by omega)).trans ?_
      exact UnpackedFloat.finite.injEq .. ▸ ⟨rfl, rest, rfl⟩

end Packing

/-- The value of a finite number as a multiple of the smallest positive number. -/
def units (x : Float) : Int := unpackedUnits x.toModel.unpack

section Order

variable {x y : Float}

theorem fits_of_isFinite (finite : x.isFinite) : Fits x.toModel.unpack :=
  unpack_fits finite

theorem units_kept (finite : x.isFinite) : rounded (units x) = units x :=
  (fits_of_isFinite finite).regular.kept

theorem isNaN_of_isFinite (finite : x.isFinite) : x.isNaN = false :=
  (fits_of_isFinite finite).regular.isNaN

theorem compare_eq (left : x.isFinite) (right : y.isFinite) :
    x.toModel.unpack.compare y.toModel.unpack = some (compare (units x) (units y)) :=
  (fits_of_isFinite left).regular.compare (fits_of_isFinite right).regular

theorem le_iff (left : x.isFinite) (right : y.isFinite) : x ≤ y ↔ units x ≤ units y := by
  calc x ≤ y ↔ x.toModel ≤ y.toModel := decide_eq_true_iff
    _ ↔ (compare (units x) (units y)).isLE = true := by
      change Option.any _ (x.toModel.unpack.compare y.toModel.unpack) = true ↔ _
      rw [compare_eq left right]
      rfl
    _ ↔ units x ≤ units y := Int.isLE_compare

theorem lt_iff_compare : x < y ↔ x.toModel.unpack.compare y.toModel.unpack = some .lt :=
  calc x < y ↔ x.toModel < y.toModel := decide_eq_true_iff
    _ ↔ x.toModel.unpack.compare y.toModel.unpack = some .lt := beq_iff_eq

theorem lt_iff (left : x.isFinite) (right : y.isFinite) : x < y ↔ units x < units y := by
  rw [lt_iff_compare, compare_eq left right, Option.some_inj, Int.compare_eq_lt]

theorem beq_iff (left : x.isFinite) (right : y.isFinite) : x == y ↔ units x = units y := by
  change (x.toModel.unpack.compare y.toModel.unpack == some .eq) = true ↔ _
  rw [compare_eq left right, beq_iff_eq, Option.some_inj, Int.compare_eq_eq]

/-- Only finite numbers equal finite ones. -/
theorem isFinite_of_beq (equal : x == y) (finite : y.isFinite) : x.isFinite := by
  change (x.toModel.unpack.compare y.toModel.unpack == some .eq) = true at equal
  exact (fits_of_isFinite finite).regular.isFinite_of_compare (beq_iff_eq.mp equal)

end Order

/-- `Packs x value`: the number is the packed form of a value. -/
def Packs (x : Float) (value : Int) : Prop :=
  ∃ shown, Shows shown value ∧ x = .ofModel (.pack shown)

section Values

variable {x y : Float} {value : Int}

theorem Packs.unique (left : Packs x value) (right : Packs y value) : x = y := by
  obtain ⟨shown, shows, rfl⟩ := left
  obtain ⟨shown', shows', rfl⟩ := right
  rw [shows.unique shows']

theorem Shows.unpack_pack {shown : UnpackedFloat} (shows : Shows shown value)
    (size : value.natAbs ≤ largest) : (Float.ofModel (.pack shown)).toModel.unpack = shown :=
  Number.unpack_pack ⟨shows.regular, shows.units ▸ size⟩

theorem Packs.isFinite (packs : Packs x value) (size : value.natAbs ≤ largest) : x.isFinite := by
  obtain ⟨shown, shows, rfl⟩ := packs
  change (Float.ofModel (.pack shown)).toModel.unpack.isFinite = true
  rw [shows.unpack_pack size]
  exact shows.regular.isFinite

theorem Packs.units (packs : Packs x value) (size : value.natAbs ≤ largest) : units x = value := by
  obtain ⟨shown, shows, rfl⟩ := packs
  rw [Number.units, shows.unpack_pack size, shows.units]

theorem add_packs (left : x.isFinite) (right : y.isFinite) (solid : units y ≠ 0) :
    Packs (x + y) (rounded (units x + units y)) :=
  ⟨_, add_shows (fits_of_isFinite left).regular (fits_of_isFinite right).regular solid, rfl⟩

theorem neg_packs (finite : x.isFinite) (solid : units x ≠ 0) : Packs (-x) (-units x) := by
  have plain : x.toModel.unpack ≠ .zero .negative := fun zero =>
    solid (congrArg unpackedUnits zero)
  exact ⟨_, neg_shows ⟨(fits_of_isFinite finite).regular, plain, rfl⟩ solid, rfl⟩

theorem units_neg (finite : x.isFinite) (solid : units x ≠ 0) :
    (-x).isFinite ∧ units (-x) = -units x := by
  have packs := neg_packs finite solid
  have kept : (-units x).natAbs ≤ largest :=
    (Int.natAbs_neg _).trans_le (fits_of_isFinite finite).size
  exact ⟨packs.isFinite kept, packs.units kept⟩

end Values

section Integers

variable {z : Int} {j : Nat}

theorem scaled_le (most : Nat) (small : z.natAbs < 2 ^ 53) (low : j ≤ most) :
    (z * 2 ^ j).natAbs ≤ (2 ^ 53 - 1) * 2 ^ most := by
  rw [natAbs_scale]
  exact Nat.mul_le_mul (Nat.le_sub_one_of_lt small) (Nat.pow_le_pow_right Nat.two_pos low)

theorem le_scaled (least : Nat) (solid : z ≠ 0) (high : least ≤ j) :
    2 ^ least ≤ (z * 2 ^ j).natAbs := by
  rw [natAbs_scale]
  calc 2 ^ least ≤ 2 ^ j := Nat.pow_le_pow_right Nat.two_pos high
    _ ≤ z.natAbs * 2 ^ j := Nat.le_mul_of_pos_left _ (Int.natAbs_pos.mpr solid)

theorem integer_le_largest (small : z.natAbs < 2 ^ 53) : (z * 2 ^ 1074).natAbs ≤ largest :=
  scaled_le 2045 small (by decide)

theorem toFloat_packs {n : UInt64} (small : n.toNat < 2 ^ 53) :
    Packs n.toFloat (n.toNat * 2 ^ 1074) := by
  have shows := normalize_shows n.toNat 1074
  rw [rounded_scale, rounded_of_natAbs_le (z := n.toNat) small.le] at shows
  exact ⟨_, shows, rfl⟩

/-- Natural numbers are converted as mantissas, and multiplied by one after that. -/
theorem ofNat_packs {n : Nat} (small : n < 2 ^ 53) : Packs (Float.ofNat n) (n * 2 ^ 1074) := by
  have narrow : n.toUInt64.toNat = n := Nat.mod_eq_of_lt (by omega)
  obtain ⟨shown, shows, converted⟩ := toFloat_packs (n := n.toUInt64) (by rwa [narrow])
  rw [narrow] at shows
  have one : Float.exactlyRepresentablePowersOfTen[0].toModel.unpack =
      .finite .positive (2 ^ 52) (-52) (by decide) := rfl
  have large : (n : Int) * 2 ^ 1074 = 0 ∨ 2 ^ 105 ≤ ((n : Int) * 2 ^ 1074).natAbs := by
    obtain rfl | solid := Nat.eq_zero_or_pos n
    · exact .inl (Int.zero_mul _)
    · exact .inr (le_scaled 105 (by omega) (by decide))
  change Packs (Float.ofScientific n false 0) _
  rw [Float.ofScientific, dif_pos ⟨small, by decide⟩, if_neg Bool.false_ne_true]
  refine ⟨_, mul_one_shows shows large, ?_⟩
  rw [← shows.unpack_pack (integer_le_largest (z := n) small), ← converted, ← one]
  rfl

/-- Integers of at most 53 bits are converted exactly. -/
theorem ofInt_packs (small : z.natAbs < 2 ^ 53) : Packs (Float.ofInt z) (z * 2 ^ 1074) := by
  cases z with
  | ofNat n => exact ofNat_packs small
  | negSucc n =>
    have packs := ofNat_packs (n := n + 1) small
    have size := integer_le_largest (z := (n + 1 : Nat)) small
    have units := packs.units size
    have negated := neg_packs (packs.isFinite size) (units ▸ (magnitude_pos n.succ_pos 1074).ne')
    rw [units, ← Int.neg_mul] at negated
    exact negated

theorem ofInt_isFinite (small : z.natAbs < 2 ^ 53) : (Float.ofInt z).isFinite :=
  (ofInt_packs small).isFinite (integer_le_largest small)

theorem units_ofInt (small : z.natAbs < 2 ^ 53) : units (Float.ofInt z) = z * 2 ^ 1074 :=
  (ofInt_packs small).units (integer_le_largest small)

end Integers

/-- `Whole x z`: the number is an integer of at most 53 bits. -/
structure Whole (x : Float) (z : Int) : Prop where
  finite : x.isFinite
  units : units x = z * 2 ^ 1074
  small : z.natAbs < 2 ^ 53

theorem Whole.of_beq {x : Float} {z : Int} (equal : x == .ofInt z) (small : z.natAbs < 2 ^ 53) :
    Whole x z := by
  have finite := isFinite_of_beq equal (ofInt_isFinite small)
  rw [beq_iff finite (ofInt_isFinite small), units_ofInt small] at equal
  exact ⟨finite, equal, small⟩

section Steps

variable {x : Float} {s : Int}

/-- At the largest number a step is lost. -/
theorem nearest_largest {j most : Nat} (low : j + 1 < most) :
    nearest ((2 ^ 53 - 1) * 2 ^ most + 2 ^ j) = (2 ^ 53 - 1) * 2 ^ most := by
  have half : 2 * 2 ^ j < 2 ^ most := by
    rw [← Nat.pow_succ']
    exact Nat.pow_lt_pow_right (by decide) low
  rw [nearest_digits (by decide) (by decide) (by omega), if_pos half]

theorem step_le_largest {u : Int} (size : u.natAbs ≤ largest) (one : s.natAbs = 1) :
    (rounded (u + s * 2 ^ 1074)).natAbs ≤ largest := by
  have sum : (u + s * 2 ^ 1074).natAbs ≤ largest + 2 ^ 1074 := by
    refine (Int.natAbs_add_le u _).trans ?_
    rw [natAbs_scale, one, Nat.one_mul]
    exact Nat.add_le_add_right size _
  rw [natAbs_rounded]
  refine (nearest_mono sum).trans ?_
  rw [largest, nearest_largest (by decide)]

theorem step_packs (finite : x.isFinite) (one : s.natAbs = 1) :
    Packs (x + .ofInt s) (rounded (units x + s * 2 ^ 1074)) := by
  have small : s.natAbs < 2 ^ 53 := by omega
  have solid : s * 2 ^ 1074 ≠ 0 := mul_ne_zero (by omega) (pow_ne_zero _ two_ne_zero)
  rw [← units_ofInt small] at solid ⊢
  exact add_packs finite (ofInt_isFinite small) solid

theorem step_isFinite (finite : x.isFinite) (one : s.natAbs = 1) : (x + .ofInt s).isFinite :=
  (step_packs finite one).isFinite (step_le_largest (fits_of_isFinite finite).size one)

theorem units_step (finite : x.isFinite) (one : s.natAbs = 1) :
    units (x + .ofInt s) = rounded (units x + s * 2 ^ 1074) :=
  (step_packs finite one).units (step_le_largest (fits_of_isFinite finite).size one)

end Steps

end Number

end PixelScript
