import PixelScript.Proofs.Value.Rounding

/-! Numbers in double precision as whole numbers of units. Every finite number is a whole
multiple of the smallest positive one, and in these units a sum is the rounded sum and a
comparison is one of whole numbers. -/
namespace PixelScript
open Float.Model Float.Model.UnpackedFloat

namespace Number

/-- The value of a finite number as a multiple of the smallest positive number. -/
def unpackedUnits : UnpackedFloat → Int
  | .finite sign mantissa exponent _ => sign.apply (mantissa * 2 ^ (exponent + 1074).toNat)
  | _ => 0

/-- The forms of finite numbers: zeros, and mantissas of 53 bits, or of less at the smallest
exponent. -/
inductive Regular : UnpackedFloat → Prop
  | zero (sign : Sign) : Regular (.zero sign)
  | finite (sign : Sign) {m k : Nat} (positive : 0 < m) (bits : m < 2 ^ 53)
      (leading : 2 ^ 52 ≤ m ∨ k = 0) : Regular (.finite sign m ((k : Int) - 1074) positive)

theorem Regular.isFinite {x : UnpackedFloat} (regular : Regular x) : x.isFinite := by
  cases regular <;> rfl

theorem Regular.isNaN {x : UnpackedFloat} (regular : Regular x) : x.isNaN = false := by
  cases regular <;> rfl

section Shifting

/-- Shifting bits out keeps what rounding has to know of them: whether they are at least one
half, and whether they are more than nothing or more than one half. -/
theorem shiftRight_exact (m j : Nat) :
    (⟨m, false, false⟩ : ExtendedMantissa) >>> j =
      ⟨m / 2 ^ j, decide (2 ^ j ≤ 2 * (m % 2 ^ j)), decide (2 * (m % 2 ^ j) % 2 ^ j ≠ 0)⟩ := by
  change Nat.repeat ExtendedMantissa.shiftRightOne j _ = _
  induction j with
  | zero => simp [Nat.repeat, Nat.mod_one]
  | succ j ih =>
    have positive := Nat.two_pow_pos j
    have below := Nat.mod_lt m positive
    -- one more bit is shifted out, in front of those that were
    have remainder : m % 2 ^ (j + 1) = m % 2 ^ j + 2 ^ j * (m / 2 ^ j % 2) := by
      rw [Nat.pow_succ, Nat.mod_mul]
    have sticky : 2 * (m % 2 ^ (j + 1)) % 2 ^ (j + 1) = 2 * (m % 2 ^ j) := by
      rw [remainder, Nat.pow_succ, Nat.mul_comm (2 ^ j) 2, Nat.mul_mod_mul_left,
        Nat.add_mul_mod_self_left, Nat.mod_mod]
    rw [Nat.repeat, ih, ExtendedMantissa.shiftRightOne, sticky, remainder]
    refine ExtendedMantissa.mk.injEq .. ▸ ⟨?_, ?_, ?_⟩
    · rw [Nat.pow_succ, Nat.div_div_eq_div_mul]
    · obtain bit | bit := Nat.mod_two_eq_zero_or_one (m / 2 ^ j) <;>
        simp [bit, Nat.pow_succ] <;> omega
    · obtain none | some := Nat.eq_zero_or_pos (m % 2 ^ j)
      · simp [none]
      · by_cases half : 2 ^ j ≤ 2 * (m % 2 ^ j)
        · simp [half, some.ne']
        · simp [half, Nat.mod_eq_of_lt (Nat.lt_of_not_le half), some.ne']

theorem roundedMantissa_shiftRight (m j : Nat) :
    ((⟨m, false, false⟩ : ExtendedMantissa) >>> j).roundedMantissa = roundEven m j := by
  have below := Nat.mod_lt m (Nat.two_pow_pos j)
  rw [shiftRight_exact, ExtendedMantissa.roundedMantissa, roundEven]
  obtain less | same | more := Nat.lt_trichotomy (2 * (m % 2 ^ j)) (2 ^ j)
  · rw [if_pos less, decide_eq_false (Nat.not_le.mpr less)]
    generalize decide (2 * (m % 2 ^ j) % 2 ^ j ≠ 0) = sticky
    cases sticky <;> rfl
  · rw [if_neg same.not_lt, if_pos same, same, decide_eq_true le_rfl, Nat.mod_self]
    rfl
  · have some : 2 * (m % 2 ^ j) % 2 ^ j ≠ 0 := by
      rw [Nat.mod_eq_sub_mod more.le, Nat.mod_eq_of_lt (by omega)]
      omega
    rw [if_neg more.not_gt, if_neg more.ne', decide_eq_true more.le, decide_eq_true some]
    rfl

/-- The exponent that rounding aims at, counted from the smallest one. -/
theorem targetExponent_eq (m k : Nat) :
    Format.binary64.targetExponent (totalExponent m (k - 1074)) =
      ((m.log2 + k - 52 : Nat) : Int) - 1074 := by
  have bits : (Format.binary64.mantissaBits : Int) = 53 := rfl
  have least : Format.binary64.minExponent = -1074 := rfl
  rw [Format.targetExponent, totalExponent, bits, least]
  omega

theorem shiftToTargetExponent_eq (m k : Nat) :
    shiftToTargetExponent .binary64 m (k - 1074) .exact =
      ((⟨m, false, false⟩ : ExtendedMantissa) >>> (m.log2 + k - 52 - k),
        ((max k (m.log2 + k - 52) : Nat) : Int) - 1074) := by
  have shift : ((m.log2 + k - 52 : Nat) - 1074 - (k - 1074 : Int)).toNat = m.log2 + k - 52 - k := by
    omega
  rw [shiftToTargetExponent, shiftToExponent, targetExponent_eq, shift]
  refine Prod.mk.injEq .. ▸ ⟨rfl, ?_⟩
  omega

end Shifting

/-- `Shows result value`: a regular number of a value, in which zero has no sign. -/
structure Shows (result : UnpackedFloat) (value : Int) : Prop where
  regular : Regular result
  plain : result ≠ .zero .negative
  units : unpackedUnits result = value

variable {m k : Nat}

/-- A mantissa that was rounded up to 54 bits is a power of two, and the exponent takes its last
zero. -/
theorem shiftToTargetExponent_carry {q : Nat} (positive : 0 < q) (most : q ≤ 2 ^ 53)
    (leading : 2 ^ 52 ≤ q ∨ k = 0) :
    ∃ m k' : Nat, shiftToTargetExponent .binary64 q ((k : Int) - 1074) .exact =
        (⟨m, false, false⟩, (k' : Int) - 1074) ∧
      0 < m ∧ m < 2 ^ 53 ∧ (2 ^ 52 ≤ m ∨ k' = 0) ∧ m * 2 ^ k' = q * 2 ^ k := by
  rw [shiftToTargetExponent_eq]
  obtain rfl | less := Nat.eq_or_lt_of_le most
  · have one : (2 ^ 53 : Nat).log2 + k - 52 - k = 1 := by
      rw [Nat.log2_two_pow]
      omega
    have next : max k ((2 ^ 53 : Nat).log2 + k - 52) = k + 1 := by
      rw [Nat.log2_two_pow]
      omega
    rw [one, next]
    refine ⟨2 ^ 52, k + 1, rfl, by decide, by decide, .inl le_rfl, ?_⟩
    rw [Nat.pow_succ 2 k]
    omega
  · have bits := (Nat.log2_lt positive.ne').mpr less
    have none : q.log2 + k - 52 - k = 0 := by omega
    have same : max k (q.log2 + k - 52) = k := by omega
    rw [none, same]
    exact ⟨q, k, rfl, positive, less, leading, rfl⟩

theorem units_finite (sign : Sign) (m k : Nat) (positive : 0 < m) :
    unpackedUnits (.finite sign m ((k : Int) - 1074) positive) = sign.apply (m * 2 ^ k) := by
  simp [unpackedUnits]

/-- Rounding with an exponent that does not exceed the one aimed at. -/
theorem roundWithAccuracy_shows (sign : Sign) (positive : 0 < m) (enough : 52 ≤ m.log2 ∨ k = 0) :
    Shows (roundWithAccuracy .binary64 sign m ((k : Int) - 1074) .exact)
      (sign.apply (nearest (m * 2 ^ k))) := by
  obtain ⟨j, aim⟩ : ∃ j, m.log2 + k - 52 = j + k := ⟨m.log2 - 52, by omega⟩
  have value : nearest (m * 2 ^ k) = roundEven m j * 2 ^ (j + k) := by
    rw [nearest, log2_scale positive.ne', aim, roundEven_scale]
  obtain ⟨least, most⟩ := roundEven_between m j
  have split := Nat.two_pow_pos j
  have floor : 1 ≤ m / 2 ^ j := (Nat.le_div_iff_mul_le split).mpr (by
    rw [Nat.one_mul]
    exact (Nat.le_log2 positive.ne').mp (by omega))
  have leading : 2 ^ 52 ≤ m / 2 ^ j ∨ j + k = 0 := by
    by_cases none : j + k = 0
    · exact .inr none
    · left
      rw [Nat.le_div_iff_mul_le split, ← Nat.pow_add]
      exact (Nat.le_log2 positive.ne').mp (by omega)
  have bits : m / 2 ^ j < 2 ^ 53 := by
    rw [Nat.div_lt_iff_lt_mul split, ← Nat.pow_add]
    exact (Nat.log2_lt positive.ne').mp (by omega)
  obtain ⟨m', k', carried, solid, small, leading', same⟩ :=
    shiftToTargetExponent_carry (q := roundEven m j) (k := j + k) (by omega) (by omega) (by omega)
  rw [roundWithAccuracy, shiftToTargetExponent_eq, aim, Nat.add_sub_cancel,
    Nat.max_eq_right (Nat.le_add_left k j)]
  dsimp only
  rw [roundedMantissa_shiftRight, carried]
  dsimp only
  rw [dif_neg solid.ne']
  refine ⟨.finite sign solid small leading', by simp, ?_⟩
  rw [units_finite, value, ← same]
  push_cast
  rfl

/-- Rounding makes the mantissa long enough first. -/
theorem round_shows (sign : Sign) (positive : 0 < m) (k : Nat) :
    Shows (UnpackedFloat.round .binary64 sign m ((k : Int) - 1074))
      (sign.apply (nearest (m * 2 ^ k))) := by
  rw [UnpackedFloat.round, targetExponent_eq, decreaseExponent]
  have shift : ((k : Int) - 1074 - ((m.log2 + k - 52 : Nat) - 1074)).toNat =
      k - (m.log2 + k - 52) := by omega
  dsimp only
  rw [shift]
  generalize difference : k - (m.log2 + k - 52) = d
  have exponent : (k : Int) - 1074 - d = ((k - d : Nat) : Int) - 1074 := by omega
  have same : m * 2 ^ d * 2 ^ (k - d) = m * 2 ^ k := by
    rw [Nat.mul_assoc, ← Nat.pow_add, Nat.add_sub_cancel' (by omega)]
  rw [exponent, Nat.shiftLeft_eq, ← same]
  refine roundWithAccuracy_shows sign (Nat.mul_pos positive (Nat.two_pow_pos d)) ?_
  rw [log2_scale positive.ne']
  omega

theorem normalize_shows (z : Int) (k : Nat) :
    Shows (UnpackedFloat.normalize .binary64 z ((k : Int) - 1074) .positive)
      (rounded (z * 2 ^ k)) := by
  have unit : (0 : Int) < 2 ^ k := Int.pow_pos (by decide)
  have size := natAbs_scale z k
  obtain negative | rfl | positive := Int.lt_trichotomy z 0
  · have same : (-z).toNat = z.natAbs := by omega
    rw [UnpackedFloat.normalize, Int.compare_eq_lt.mpr negative, same,
      rounded_nonpos (Int.mul_nonpos_of_nonpos_of_nonneg negative.le unit.le), size]
    exact round_shows .negative (by omega) k
  · rw [Int.zero_mul]
    exact ⟨.zero _, by simp [UnpackedFloat.normalize], by simp [rounded, unpackedUnits,
      UnpackedFloat.normalize]⟩
  · have same : z.toNat = z.natAbs := by omega
    rw [UnpackedFloat.normalize, Int.compare_eq_gt.mpr positive, same,
      rounded_nonneg (Int.mul_nonneg positive.le unit.le), size]
    exact round_shows .positive (by omega) k

/-- Regular numbers are exact. -/
theorem Regular.kept {x : UnpackedFloat} (regular : Regular x) :
    rounded (unpackedUnits x) = unpackedUnits x := by
  cases regular with
  | zero sign => simp [unpackedUnits, rounded]
  | @finite sign m k positive bits _ =>
    have kept := rounded_natCast (m * 2 ^ k)
    rw [nearest_exact bits] at kept
    push_cast at kept
    rw [units_finite]
    cases sign with
    | positive => exact kept
    | negative => exact (rounded_neg _).trans (congrArg Neg.neg kept)

theorem apply_mul (sign : Sign) (a b : Int) : sign.apply a * b = sign.apply (a * b) := by
  cases sign with
  | positive => rfl
  | negative => exact Int.neg_mul a b

/-- A mantissa is brought to a smaller exponent without a loss. -/
theorem decreaseExponent_units (sign : Sign) (m : Nat) {c k : Nat} (le : c ≤ k) :
    sign.apply ((decreaseExponent m ((k : Int) - 1074) ((c : Int) - 1074)).1 : Int) * 2 ^ c =
      sign.apply (m * 2 ^ k) := by
  have shift : ((k : Int) - 1074 - ((c : Int) - 1074)).toNat = k - c := by omega
  rw [decreaseExponent, shift, Nat.shiftLeft_eq, apply_mul]
  push_cast
  rw [Int.mul_assoc, ← Int.pow_add, Nat.sub_add_cancel le]

/-- A sum is the rounded sum of the values, and no negative zero unless both are zeros. -/
theorem add_shows {x y : UnpackedFloat} (left : Regular x) (right : Regular y)
    (solid : unpackedUnits y ≠ 0) :
    Shows (UnpackedFloat.add .binary64 x y) (rounded (unpackedUnits x + unpackedUnits y)) := by
  cases right with
  | zero => exact absurd rfl solid
  | @finite sign m k positive bits leading =>
    cases left with
    | zero =>
      have kept := (Regular.finite sign positive bits leading).kept
      refine ⟨.finite sign positive bits leading, by simp [UnpackedFloat.add], ?_⟩
      rw [show unpackedUnits (.zero _) = 0 from rfl, Int.zero_add, kept]
      rfl
    | @finite sign' m' k' positive' bits' leading' =>
      have smaller : min ((k' : Int) - 1074) ((k : Int) - 1074) =
          ((min k' k : Nat) : Int) - 1074 := by omega
      rw [units_finite, units_finite, ← decreaseExponent_units sign' m' (Nat.min_le_left k' k),
        ← decreaseExponent_units sign m (Nat.min_le_right k' k), ← Int.add_mul,
        UnpackedFloat.add, smaller]
      exact normalize_shows _ _

section Order

variable {m' k' : Nat}

/-- Of two regular magnitudes the one with the larger exponent is larger. -/
theorem magnitude_lt (bits : m < 2 ^ 53) (leading : 2 ^ 52 ≤ m' ∨ k' = 0) (less : k < k') :
    m * 2 ^ k < m' * 2 ^ k' := by
  have lead : 2 ^ 52 ≤ m' := leading.resolve_right (by omega)
  calc m * 2 ^ k < 2 ^ 53 * 2 ^ k := Nat.mul_lt_mul_of_pos_right bits (Nat.two_pow_pos k)
    _ = 2 ^ 52 * 2 ^ (k + 1) := by rw [Nat.pow_succ 2 k, Nat.pow_succ 2 52]; ring
    _ ≤ m' * 2 ^ k' := Nat.mul_le_mul lead (Nat.pow_le_pow_right (by decide) less)

/-- Magnitudes are compared by their exponents, and then by their mantissas. -/
theorem compare_magnitudes (bits : m < 2 ^ 53) (leading : 2 ^ 52 ≤ m ∨ k = 0) (bits' : m' < 2 ^ 53)
    (leading' : 2 ^ 52 ≤ m' ∨ k' = 0) :
    (compare ((k : Int) - 1074) ((k' : Int) - 1074)).then (compare m m') =
      compare ((m : Int) * 2 ^ k) ((m' : Int) * 2 ^ k') := by
  obtain less | rfl | more := Nat.lt_trichotomy k k'
  · rw [Int.compare_eq_lt.mpr (by omega), Int.compare_eq_lt.mpr]
    · rfl
    · exact_mod_cast magnitude_lt bits leading' less
  · have unit : (0 : Int) < 2 ^ k := Int.pow_pos (by decide)
    rw [Int.compare_eq_eq.mpr rfl, Ordering.then]
    obtain less | rfl | more := Nat.lt_trichotomy m m'
    · rw [Nat.compare_eq_lt.mpr less,
        Int.compare_eq_lt.mpr (Int.mul_lt_mul_of_pos_right (by omega) unit)]
    · rw [Nat.compare_eq_eq.mpr rfl, Int.compare_eq_eq.mpr rfl]
    · rw [Nat.compare_eq_gt.mpr more,
        Int.compare_eq_gt.mpr (Int.mul_lt_mul_of_pos_right (by omega) unit)]
  · rw [Int.compare_eq_gt.mpr (by omega), Int.compare_eq_gt.mpr]
    · rfl
    · exact_mod_cast magnitude_lt bits' leading more

theorem swap_compare (a b : Int) : (compare a b).swap = compare (-a) (-b) := by
  obtain less | rfl | more := Int.lt_trichotomy a b
  · rw [Int.compare_eq_lt.mpr less, Int.compare_eq_gt.mpr (Int.neg_lt_neg less), Ordering.swap]
  · rw [Int.compare_eq_eq.mpr rfl, Int.compare_eq_eq.mpr rfl, Ordering.swap]
  · rw [Int.compare_eq_gt.mpr more, Int.compare_eq_lt.mpr (Int.neg_lt_neg more), Ordering.swap]

theorem magnitude_pos (positive : 0 < m) (k : Nat) : (0 : Int) < m * 2 ^ k :=
  Int.mul_pos (by omega) (Int.pow_pos (by decide))

/-- Numbers are compared by their values. -/
theorem Regular.compare {x y : UnpackedFloat} (left : Regular x) (right : Regular y) :
    x.compare y = some (Ord.compare (unpackedUnits x) (unpackedUnits y)) := by
  cases left with
  | zero =>
    cases right with
    | zero => rfl
    | @finite sign m k positive =>
      have size := magnitude_pos positive k
      rw [units_finite]
      cases sign with
      | positive => exact congrArg some (Int.compare_eq_lt.mpr size).symm
      | negative => exact congrArg some (Int.compare_eq_gt.mpr (Int.neg_neg_of_pos size)).symm
  | @finite sign m k positive bits leading =>
    have size := magnitude_pos positive k
    rw [units_finite]
    cases right with
    | zero =>
      cases sign with
      | positive => exact congrArg some (Int.compare_eq_gt.mpr size).symm
      | negative => exact congrArg some (Int.compare_eq_lt.mpr (Int.neg_neg_of_pos size)).symm
    | @finite sign' m' k' positive' bits' leading' =>
      have size' := magnitude_pos positive' k'
      have magnitudes := compare_magnitudes bits leading bits' leading'
      rw [units_finite]
      cases sign with
      | positive =>
        cases sign' with
        | positive => exact congrArg some magnitudes
        | negative =>
          exact congrArg some (Int.compare_eq_gt.mpr ((Int.neg_neg_of_pos size').trans size)).symm
      | negative =>
        cases sign' with
        | positive =>
          exact congrArg some (Int.compare_eq_lt.mpr ((Int.neg_neg_of_pos size).trans size')).symm
        | negative =>
          exact congrArg some ((congrArg Ordering.swap magnitudes).trans (swap_compare _ _))

theorem magnitude_injective (bits : m < 2 ^ 53) (leading : 2 ^ 52 ≤ m ∨ k = 0)
    (bits' : m' < 2 ^ 53) (leading' : 2 ^ 52 ≤ m' ∨ k' = 0)
    (same : (m : Int) * 2 ^ k = m' * 2 ^ k') : m = m' ∧ k = k' := by
  have equal : m * 2 ^ k = m' * 2 ^ k' := by exact_mod_cast same
  obtain less | rfl | more := Nat.lt_trichotomy k k'
  · exact absurd equal (magnitude_lt bits leading' less).ne
  · exact ⟨Nat.eq_of_mul_eq_mul_right (Nat.two_pow_pos k) equal, rfl⟩
  · exact absurd equal (magnitude_lt bits' leading more).ne'

theorem units_finite_ne_zero (sign : Sign) (positive : 0 < m) :
    unpackedUnits (.finite sign m ((k : Int) - 1074) positive) ≠ 0 := by
  have size := magnitude_pos positive k
  rw [units_finite]
  cases sign with
  | positive => exact size.ne'
  | negative => exact (Int.neg_neg_of_pos size).ne

theorem Regular.isFinite_of_compare {x y : UnpackedFloat} (regular : Regular y)
    (equal : x.compare y = some .eq) : x.isFinite := by
  cases x with
  | notANumber => cases regular <;> cases equal
  | infinity sign => cases regular <;> cases sign <;> cases equal
  | zero sign => rfl
  | finite sign => rfl

/-- A value has one regular form. -/
theorem Shows.unique {x y : UnpackedFloat} {value : Int} (left : Shows x value)
    (right : Shows y value) : x = y := by
  obtain ⟨regular, plain, units⟩ := left
  obtain ⟨regular', plain', units'⟩ := right
  have same := units.trans units'.symm
  cases regular with
  | zero sign =>
    cases regular' with
    | zero sign' => cases sign <;> cases sign' <;> first | rfl | contradiction
    | finite sign' positive' => exact absurd same.symm (units_finite_ne_zero sign' positive')
  | @finite sign m k positive bits leading =>
    cases regular' with
    | zero => exact absurd same (units_finite_ne_zero sign positive)
    | @finite sign' m' k' positive' bits' leading' =>
      have size := magnitude_pos positive k
      have size' := magnitude_pos positive' k'
      rw [units_finite, units_finite] at same
      cases sign with
      | positive =>
        cases sign' with
        | positive =>
          obtain ⟨rfl, rfl⟩ := magnitude_injective bits leading bits' leading' same
          rfl
        | negative => exact absurd same ((Int.neg_neg_of_pos size').trans size).ne'
      | negative =>
        cases sign' with
        | positive => exact absurd same ((Int.neg_neg_of_pos size).trans size').ne
        | negative =>
          obtain ⟨rfl, rfl⟩ := magnitude_injective bits leading bits' leading' (Int.neg_inj.mp same)
          rfl

end Order

theorem natAbs_units (sign : Sign) (positive : 0 < m) :
    (unpackedUnits (.finite sign m ((k : Int) - 1074) positive)).natAbs = m * 2 ^ k := by
  have size : ((m : Int) * 2 ^ k).natAbs = m * 2 ^ k := natAbs_scale m k
  rw [units_finite]
  cases sign with
  | positive => exact size
  | negative => exact (Int.natAbs_neg _).trans size

/-- Numbers away from the smallest keep their value when they are multiplied by one. -/
theorem mul_one_shows {x : UnpackedFloat} {value : Int} (shows : Shows x value)
    (large : value = 0 ∨ 2 ^ 105 ≤ value.natAbs) :
    Shows (UnpackedFloat.mul .binary64 x (.finite .positive (2 ^ 52) (-52) (by decide))) value := by
  obtain ⟨regular, plain, rfl⟩ := shows
  cases regular with
  | zero sign =>
    cases sign with
    | positive => exact ⟨.zero _, plain, rfl⟩
    | negative => exact absurd rfl plain
  | @finite sign m k positive bits leading =>
    have size := large.resolve_left (units_finite_ne_zero sign positive)
    rw [natAbs_units] at size
    have high : 52 ≤ k := by
      by_contra low
      have less : m * 2 ^ k < 2 ^ 53 * 2 ^ 52 :=
        Nat.mul_lt_mul_of_lt_of_le bits (Nat.pow_le_pow_right Nat.two_pos (by omega)) (by decide)
      omega
    obtain ⟨k, rfl⟩ := Nat.exists_eq_add_of_le' high
    have same : m * 2 ^ 52 * 2 ^ k = m * 2 ^ (k + 52) := by rw [Nat.pow_add]; ring
    have exponent : ((k + 52 : Nat) : Int) - 1074 + -52 = k - 1074 := by omega
    have result := roundWithAccuracy_shows (k := k) (sign * .positive)
      (Nat.mul_pos positive (Nat.two_pow_pos 52)) (.inl (by rw [log2_scale positive.ne']; omega))
    rw [same, nearest_exact bits] at result
    rw [UnpackedFloat.mul, exponent, units_finite]
    push_cast at result
    cases sign <;> exact result

theorem neg_shows {x : UnpackedFloat} {value : Int} (shows : Shows x value) (solid : value ≠ 0) :
    Shows x.neg (-value) := by
  obtain ⟨regular, plain, rfl⟩ := shows
  cases regular with
  | zero sign => exact absurd rfl solid
  | @finite sign m k positive bits leading =>
    refine ⟨.finite (-sign) positive bits leading, by simp [UnpackedFloat.neg], ?_⟩
    rw [UnpackedFloat.neg, units_finite, units_finite]
    cases sign with
    | positive => rfl
    | negative => exact (Int.neg_neg _).symm

end Number

end PixelScript
