import PixelScript.Evaluation.Builtins
import PixelScript.Proofs.Value.Floats

/-! Rounding down. In units the result is the floor, and a number that rounds down to a
coordinate names one place on its side. -/
namespace PixelScript
open Float.Model Float.Model.UnpackedFloat

namespace Number

section Conversions

variable {x : Float}

/-- Conversion drops the digits behind the point. -/
theorem roundToInt_eq (sign : Sign) (m k p : Nat) :
    roundToInt sign m ((k : Int) - p) = sign.apply ((m : Int) * 2 ^ k / 2 ^ p) := by
  have up : ((k : Int) - p - 0).toNat = k - p := by omega
  have down : (0 - ((k : Int) - p - (k - p : Nat))).toNat = p - k := by omega
  have digits := Nat.mul_div_mul_right (m * 2 ^ (k - p)) (2 ^ (p - k)) (Nat.two_pow_pos (min k p))
  rw [Nat.mul_assoc, ← Nat.pow_add, ← Nat.pow_add, show k - p + min k p = k by omega,
    show p - k + min k p = p by omega] at digits
  rw [roundToInt, decreaseExponent, up]
  dsimp only
  rw [shiftToExponent, down, ExtendedMantissa.ofMantissaAndAccuracy, shiftRight_exact,
    Nat.shiftLeft_eq, ← digits]
  push_cast
  rfl

theorem Regular.toInt {x : UnpackedFloat} (regular : Regular x) (positive : 0 ≤ unpackedUnits x)
    (least most : Int) : x.toInt least most = unpackedUnits x / 2 ^ 1074 := by
  revert positive
  cases regular with
  | zero sign => exact fun _ => (Int.zero_ediv _).symm
  | @finite sign m k solid =>
    have size := magnitude_pos solid k
    rw [units_finite]
    cases sign with
    | positive => exact fun _ => roundToInt_eq .positive m k 1074
    | negative => exact fun positive => absurd size (Int.not_lt.mpr (Int.neg_nonneg.mp positive))

theorem toNat_toUInt64 (finite : x.isFinite) (positive : 0 ≤ units x)
    (small : units x < 2 ^ 64 * 2 ^ 1074) : (x.toUInt64.toNat : Int) = units x / 2 ^ 1074 := by
  have unit : (0 : Int) < 2 ^ 1074 := Int.pow_pos (by decide)
  have least : 0 ≤ units x / 2 ^ 1074 := Int.ediv_nonneg positive unit.le
  have most : units x / 2 ^ 1074 < 2 ^ 64 := Int.ediv_lt_of_lt_mul unit small
  have converted : x.toUInt64 = UInt64.ofNatClamp (units x / 2 ^ 1074).toNat :=
    congrArg (fun whole : Int => UInt64.ofNatClamp whole.toNat)
      ((fits_of_isFinite finite).regular.toInt positive 0 (UInt64.size - 1))
  rw [converted]
  generalize units x / 2 ^ 1074 = whole at least most ⊢
  have bound : whole.toNat < UInt64.size := by
    change _ < 2 ^ 64
    omega
  rw [UInt64.ofNatClamp, dif_pos bound]
  exact Int.toNat_of_nonneg least

end Conversions

section Flooring

variable {x : Float}

/-- From 53 bits on numbers are whole. -/
theorem Regular.dvd_units {x : UnpackedFloat} (regular : Regular x) {p : Nat}
    (large : 2 ^ 53 * 2 ^ p ≤ (unpackedUnits x).natAbs) : 2 ^ p ∣ unpackedUnits x := by
  rw [show (2 : Int) ^ p = (2 ^ p : Nat) from (Int.natCast_pow 2 p).symm, Int.natCast_dvd]
  cases regular with
  | zero sign => exact Nat.dvd_zero _
  | @finite sign m k positive bits =>
    rw [natAbs_units] at large ⊢
    have le : p ≤ k := by
      by_contra less
      refine (Nat.mul_lt_mul_of_lt_of_le bits ?_ (Nat.two_pow_pos p)).not_ge large
      exact Nat.pow_le_pow_right Nat.two_pos (Nat.le_of_not_le less)
    exact Nat.dvd_mul_left_of_dvd (Nat.pow_dvd_pow 2 le) m

theorem units_bound : units 9007199254740992 = 2 ^ 53 * 2 ^ 1074 := by
  decide +kernel

theorem whole_packs (finite : x.isFinite) (positive : 0 ≤ units x)
    (small : units x < 2 ^ 53 * 2 ^ 1074) :
    Packs x.toUInt64.toFloat (units x / 2 ^ 1074 * 2 ^ 1074) := by
  have unit : (0 : Int) < 2 ^ 1074 := Int.pow_pos (by decide)
  have most : units x / 2 ^ 1074 < 2 ^ 53 := Int.ediv_lt_of_lt_mul unit small
  have narrow : (2 : Int) ^ 53 * 2 ^ 1074 ≤ 2 ^ 64 * 2 ^ 1074 :=
    Int.mul_le_mul_of_nonneg_right (by decide) unit.le
  have whole := toNat_toUInt64 finite positive (small.trans_le narrow)
  rw [← whole] at most ⊢
  exact toFloat_packs (by exact_mod_cast most)

/-- `Floors x y`: the number `y` is the largest whole number that is not above `x`. -/
structure Floors (x y : Float) : Prop where
  finite : y.isFinite
  units : units y = units x / 2 ^ 1074 * 2 ^ 1074

theorem floors_of_dvd (finite : x.isFinite) (whole : 2 ^ 1074 ∣ units x) : Floors x x :=
  ⟨finite, (Int.ediv_mul_cancel whole).symm⟩

theorem floors_of_large (finite : x.isFinite) (large : 2 ^ 53 * 2 ^ 1074 ≤ (units x).natAbs) :
    Floors x x :=
  floors_of_dvd finite ((fits_of_isFinite finite).regular.dvd_units large)

/-- Below zero the floor of a number that is not whole is one further from zero. -/
theorem ediv_neg_of_part {u unit : Int} (positive : 0 < unit) (part : u / unit * unit ≠ u) :
    -u / unit = -(u / unit + 1) := by
  have split := Int.emod_add_mul_ediv u unit
  have most := Int.emod_lt_of_pos u positive
  have least : 0 < u % unit :=
    (Int.emod_nonneg u positive.ne').lt_of_ne fun zero => part (by linarith)
  rw [Int.ediv_eq_iff_of_pos positive]
  constructor <;> linarith

theorem ediv_small {u unit : Int} (unit_pos : 0 < unit) (positive : 0 ≤ u)
    (small : u < 2 ^ 53 * unit) : 0 ≤ u / unit ∧ (u / unit).natAbs < 2 ^ 53 := by
  have least := Int.ediv_nonneg positive unit_pos.le
  have most := Int.ediv_lt_of_lt_mul unit_pos small
  omega

theorem floors_toFloat (finite : x.isFinite) (positive : 0 ≤ units x)
    (small : units x < 2 ^ 53 * 2 ^ 1074) : Floors x x.toUInt64.toFloat := by
  have size := integer_le_largest (ediv_small (Int.pow_pos (by decide)) positive small).2
  have packs := whole_packs finite positive small
  exact ⟨packs.isFinite size, packs.units size⟩

theorem units_neg_succ {q : Int} (finite : x.isFinite) (whole : units x = q * 2 ^ 1074)
    (positive : 0 ≤ q) (small : q.natAbs < 2 ^ 53) :
    (-(x + 1)).isFinite ∧ units (-(x + 1)) = -(q + 1) * 2 ^ 1074 := by
  have next : units (x + 1) = _ := units_step (s := 1) finite rfl
  rw [whole, ← Int.add_mul, rounded_scale, rounded_of_natAbs_le (by omega)] at next
  have solid : units (x + 1) ≠ 0 :=
    next ▸ mul_ne_zero (by omega) (pow_ne_zero 1074 two_ne_zero)
  obtain ⟨finite, negated⟩ := units_neg (step_isFinite (s := 1) finite rfl) solid
  exact ⟨finite, negated.trans ((congrArg Neg.neg next).trans (Int.neg_mul ..).symm)⟩

theorem floors_neg {whole : Float} (floors : Floors (-x) whole) (below : units x < 0)
    (size : units (-x) = -units x) (small : units (-x) < 2 ^ 53 * 2 ^ 1074)
    (part : units whole ≠ units (-x)) : Floors x (-(whole + 1)) := by
  have unit : (0 : Int) < 2 ^ 1074 := Int.pow_pos (by decide)
  have positive : 0 ≤ units (-x) := size ▸ (Int.neg_pos.mpr below).le
  obtain ⟨least, most⟩ := ediv_small unit positive small
  obtain ⟨finite, units⟩ := units_neg_succ floors.finite floors.units least most
  have floor := ediv_neg_of_part unit (floors.units ▸ part)
  rw [size, Int.neg_neg] at floor
  refine ⟨finite, ?_⟩
  rw [units, size, floor]

/-- Rounding down gives the floor. -/
theorem roundedDown_floors (finite : x.isFinite) : Floors x (roundedDown x) := by
  have zero : (0 : Float).isFinite := rfl
  unfold roundedDown
  by_cases negative : x < 0
  · have below : units x < 0 := (lt_iff finite zero).mp negative
    obtain ⟨finite', size⟩ := units_neg finite below.ne
    simp only [if_pos negative]
    split
    next small =>
      rw [lt_iff finite' rfl, units_bound] at small
      have floors := floors_toFloat finite' (by omega) small
      split
      next whole =>
        rw [beq_iff floors.finite finite', floors.units, size] at whole
        exact floors_of_dvd finite (Int.dvd_neg.mp ⟨_, whole.symm.trans (Int.mul_comm ..)⟩)
      next part =>
        exact floors_neg floors below size small (mt (beq_iff floors.finite finite').mpr part)
    next large =>
      rw [lt_iff finite' rfl, units_bound, size] at large
      exact floors_of_large finite (by omega)
  · have above : 0 ≤ units x := Int.not_lt.mp (mt (lt_iff finite zero).mpr negative)
    simp only [if_neg negative]
    split
    next small =>
      rw [lt_iff finite rfl, units_bound] at small
      have floors := floors_toFloat finite above small
      split
      next whole =>
        exact ⟨finite, ((beq_iff floors.finite finite).mp whole).symm.trans floors.units⟩
      next => exact floors
    next large =>
      rw [lt_iff finite rfl, units_bound] at large
      exact floors_of_large finite (by omega)

theorem isFinite_of_between {y : Float} (above : ¬ x < 0) (below : x < y) : x.isFinite := by
  change x.toModel.unpack.isFinite = true
  rw [lt_iff_compare] at above below
  cases form : x.toModel.unpack with
  | zero => rfl
  | finite => rfl
  | notANumber =>
    rw [form] at below
    cases below
  | infinity sign =>
    rw [form] at above below
    cases sign with
    | negative => exact absurd rfl above
    | positive =>
      cases other : y.toModel.unpack with
      | infinity sign =>
        rw [other] at below
        cases sign <;> cases below
      | _ =>
        rw [other] at below
        cases below

theorem isFinite_of_neg (above : x < 0) (below : -x < 9007199254740992) : x.isFinite := by
  change x.toModel.unpack.isFinite = true
  rw [lt_iff_compare] at above below
  cases form : x.toModel.unpack with
  | zero => rfl
  | finite => rfl
  | notANumber =>
    rw [form] at above
    cases above
  | infinity sign =>
    change UnpackedFloat.compare (Float.ofModel (.pack x.toModel.unpack.neg)).toModel.unpack _ = _
      at below
    rw [form] at above below
    cases sign with
    | positive => cases above
    | negative => cases below

theorem isFinite_of_roundedDown (finite : (roundedDown x).isFinite) : x.isFinite := by
  by_cases small : (if x < 0 then -x else x) < 9007199254740992
  · by_cases negative : x < 0
    · exact isFinite_of_neg negative (by rwa [if_pos negative] at small)
    · exact isFinite_of_between negative (by rwa [if_neg negative] at small)
  · unfold roundedDown at finite
    rwa [if_neg small] at finite

/-- `Along x side place`: rounded down, the number is a place on a side. Sides of less than 53
bits are told from all other numbers, and then the place is the floor and before the end. -/
structure Along (x : Float) (side place : Nat) : Prop where
  finite : (roundedDown x).isFinite
  nonneg : 0 ≤ roundedDown x
  below : roundedDown x < Float.ofNat side
  converted : place = (roundedDown x).toUInt64.toNat
  exact : side < 2 ^ 53 → units x / 2 ^ 1074 = place ∧ place < side

theorem not_isCoordinate_zero : ¬ isCoordinate x 0 := by
  intro inside
  simp only [isCoordinate, Bool.and_eq_true, decide_eq_true_eq] at inside
  obtain ⟨⟨finite, nonneg⟩, below⟩ := inside
  have zero : (0 : Float).isFinite := rfl
  exact Int.not_lt.mpr ((le_iff zero finite).mp nonneg) ((lt_iff finite zero).mp below)

theorem Along.of_isCoordinate {side : Nat} (inside : isCoordinate (roundedDown x) side) :
    Along x side (roundedDown x).toUInt64.toNat := by
  simp only [isCoordinate, Bool.and_eq_true, decide_eq_true_eq] at inside
  obtain ⟨⟨finite, nonneg⟩, below⟩ := inside
  refine ⟨finite, nonneg, below, rfl, fun small => ?_⟩
  have unit : (0 : Int) < 2 ^ 1074 := Int.pow_pos (by decide)
  have zero : (0 : Float).isFinite := rfl
  have floors := roundedDown_floors (isFinite_of_roundedDown finite)
  have least : 0 ≤ units (roundedDown x) := (le_iff zero finite).mp nonneg
  have most : units (roundedDown x) < side * 2 ^ 1074 := by
    rw [← units_ofInt (z := side) small]
    exact (lt_iff finite (ofInt_isFinite (z := side) small)).mp below
  have narrow : (side : Int) * 2 ^ 1074 ≤ 2 ^ 64 * 2 ^ 1074 :=
    Int.mul_le_mul_of_nonneg_right (by omega) unit.le
  have place := toNat_toUInt64 finite least (most.trans_le narrow)
  have same : units (roundedDown x) / 2 ^ 1074 = units x / 2 ^ 1074 := by
    rw [floors.units, Int.mul_ediv_cancel _ unit.ne']
  have less := Int.ediv_lt_of_lt_mul unit most
  rw [← place] at less same
  exact ⟨same.symm, by omega⟩

end Flooring

end Number

end PixelScript
