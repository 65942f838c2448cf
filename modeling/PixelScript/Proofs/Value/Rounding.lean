import Mathlib

/-! Rounding to 53 significant bits, to the nearest and from the middle to the even one. It is
said on whole numbers, without exponents: a number of at least 53 bits is cut into its leading
53 bits and a rest, and only the rest decides. Rounding keeps the order, commutes with powers
of two, and leaves a neighbour of a large number where that number is. -/
namespace PixelScript

namespace Number

/-- `n / 2 ^ k` as a whole number, the nearest one, and from the middle the even one. -/
def roundEven (n k : Nat) : Nat :=
  if 2 * (n % 2 ^ k) < 2 ^ k then n / 2 ^ k
  else if 2 * (n % 2 ^ k) = 2 ^ k then n / 2 ^ k + n / 2 ^ k % 2
  else n / 2 ^ k + 1

/-- The number of at most 53 significant bits that is nearest. -/
def nearest (n : Nat) : Nat :=
  roundEven n (n.log2 - 52) * 2 ^ (n.log2 - 52)

theorem roundEven_between (n k : Nat) :
    n / 2 ^ k ≤ roundEven n k ∧ roundEven n k ≤ n / 2 ^ k + 1 := by
  unfold roundEven
  split_ifs <;> omega

/-- Rounding does not depend on the unit, as long as units are powers of two. -/
theorem roundEven_scale (n k j : Nat) : roundEven (n * 2 ^ j) (k + j) = roundEven n k := by
  have positive := Nat.two_pow_pos j
  have quotient : n * 2 ^ j / 2 ^ (k + j) = n / 2 ^ k := by
    rw [Nat.pow_add, Nat.mul_div_mul_right _ _ positive]
  have remainder : 2 * (n * 2 ^ j % 2 ^ (k + j)) = 2 * (n % 2 ^ k) * 2 ^ j := by
    rw [Nat.pow_add, Nat.mul_mod_mul_right, Nat.mul_assoc]
  rw [roundEven, roundEven, quotient, remainder, Nat.pow_add]
  simp only [Nat.mul_lt_mul_right positive, Nat.mul_left_inj positive.ne']

section Digits

variable {n q k r : Nat}

theorem log2_digits (low : 2 ^ 52 ≤ q) (high : q < 2 ^ 53) (small : r < 2 ^ k) :
    (q * 2 ^ k + r).log2 = 52 + k := by
  have lower : 2 ^ (52 + k) ≤ q * 2 ^ k + r := by
    rw [Nat.pow_add]
    exact Nat.le_add_right_of_le (Nat.mul_le_mul_right _ low)
  have upper : q * 2 ^ k + r < 2 ^ (52 + k + 1) := by
    have next : (q + 1) * 2 ^ k ≤ 2 ^ 53 * 2 ^ k := Nat.mul_le_mul_right _ high
    rw [Nat.add_right_comm, Nat.pow_add]
    rw [Nat.add_mul] at next
    omega
  exact (Nat.log2_eq_iff (by have := Nat.two_pow_pos (52 + k); omega)).mpr ⟨lower, upper⟩

/-- The leading bits and the rest of a number decide how it is rounded. -/
theorem nearest_digits (low : 2 ^ 52 ≤ q) (high : q < 2 ^ 53) (small : r < 2 ^ k) :
    nearest (q * 2 ^ k + r) =
      (if 2 * r < 2 ^ k then q else if 2 * r = 2 ^ k then q + q % 2 else q + 1) * 2 ^ k := by
  have quotient : (q * 2 ^ k + r) / 2 ^ k = q := by
    rw [Nat.mul_comm, Nat.mul_add_div (Nat.two_pow_pos k), Nat.div_eq_of_lt small, Nat.add_zero]
  have remainder : (q * 2 ^ k + r) % 2 ^ k = r := by
    rw [Nat.mul_comm, Nat.mul_add_mod, Nat.mod_eq_of_lt small]
  rw [nearest, log2_digits low high small, Nat.add_sub_cancel_left, roundEven, quotient, remainder]

/-- A number of at least 53 bits has 53 leading bits. -/
theorem exists_digits (large : 2 ^ 52 ≤ n) :
    ∃ q k r, n = q * 2 ^ k + r ∧ 2 ^ 52 ≤ q ∧ q < 2 ^ 53 ∧ r < 2 ^ k := by
  have solid : n ≠ 0 := by omega
  have bits : 52 ≤ n.log2 := (Nat.le_log2 solid).mpr large
  have split : ∀ j, 52 ≤ j → 2 ^ j = 2 ^ 52 * 2 ^ (j - 52) := by
    intro j enough
    rw [← Nat.pow_add, Nat.add_sub_cancel' enough]
  have positive := Nat.two_pow_pos (n.log2 - 52)
  refine ⟨n / 2 ^ (n.log2 - 52), n.log2 - 52, n % 2 ^ (n.log2 - 52), ?_, ?_, ?_, ?_⟩
  · rw [Nat.mul_comm, Nat.div_add_mod]
  · rw [Nat.le_div_iff_mul_le positive, ← split _ bits]
    exact Nat.log2_self_le solid
  · rw [Nat.div_lt_iff_lt_mul positive]
    have upper := @Nat.lt_log2_self n
    rw [Nat.pow_succ, split _ bits] at upper
    omega
  · exact Nat.mod_lt _ positive

end Digits

/-- Numbers of at most 53 significant bits are kept. -/
theorem nearest_exact (small : m < 2 ^ 53) (j : Nat) : nearest (m * 2 ^ j) = m * 2 ^ j := by
  have divides : 2 ^ ((m * 2 ^ j).log2 - 52) ∣ m * 2 ^ j := by
    obtain rfl | solid := Nat.eq_zero_or_pos m
    · simp
    have fits : m * 2 ^ j < 2 ^ (53 + j) := by
      rw [Nat.pow_add]
      exact Nat.mul_lt_mul_of_pos_right small (Nat.two_pow_pos j)
    have bits := (Nat.log2_lt (Nat.mul_ne_zero solid.ne' (Nat.two_pow_pos j).ne')).mpr fits
    exact Nat.dvd_mul_left_of_dvd (Nat.pow_dvd_pow 2 (by omega)) m
  rw [nearest, roundEven, Nat.mod_eq_zero_of_dvd divides, Nat.mul_zero,
    if_pos (Nat.two_pow_pos _), Nat.div_mul_cancel divides]

theorem nearest_of_lt (small : n < 2 ^ 53) : nearest n = n := by
  simpa using nearest_exact small 0

theorem nearest_two_pow (j : Nat) : nearest (2 ^ j) = 2 ^ j := by
  simpa using nearest_exact (m := 1) (by decide) j

theorem log2_scale (solid : n ≠ 0) (j : Nat) : (n * 2 ^ j).log2 = n.log2 + j := by
  have positive := Nat.two_pow_pos j
  rw [Nat.log2_eq_iff (Nat.mul_ne_zero solid positive.ne'), Nat.add_right_comm, Nat.pow_add,
    Nat.pow_add]
  exact ⟨Nat.mul_le_mul_right _ (Nat.log2_self_le solid),
    Nat.mul_lt_mul_of_pos_right Nat.lt_log2_self positive⟩

theorem nearest_scale (n j : Nat) : nearest (n * 2 ^ j) = nearest n * 2 ^ j := by
  by_cases small : n < 2 ^ 53
  · rw [nearest_exact small, nearest_of_lt small]
  have solid : n ≠ 0 := by omega
  have bits : 52 ≤ n.log2 := (Nat.le_log2 solid).mpr (by omega)
  have spare : (n * 2 ^ j).log2 - 52 = n.log2 - 52 + j := by
    rw [log2_scale solid]
    omega
  rw [nearest, nearest, spare, roundEven_scale, Nat.pow_add, Nat.mul_assoc]

theorem nearest_between (low : 2 ^ 52 ≤ q) (high : q < 2 ^ 53) (small : r < 2 ^ k) :
    q * 2 ^ k ≤ nearest (q * 2 ^ k + r) ∧ nearest (q * 2 ^ k + r) ≤ (q + 1) * 2 ^ k := by
  rw [nearest_digits low high small]
  constructor <;> refine Nat.mul_le_mul_right _ ?_ <;> split_ifs <;> omega

/-- Rounding keeps the order. -/
theorem nearest_mono {a b : Nat} (le : a ≤ b) : nearest a ≤ nearest b := by
  by_cases small : b < 2 ^ 53
  · rwa [nearest_of_lt small, nearest_of_lt (by omega)]
  obtain ⟨q', k', r', rfl, low', high', rest'⟩ := exists_digits (n := b) (by omega)
  have floor := (nearest_between low' high' rest').1
  by_cases short : a < 2 ^ 52
  · have lead : 2 ^ 52 * 1 ≤ q' * 2 ^ k' := Nat.mul_le_mul low' (Nat.two_pow_pos k')
    rw [nearest_of_lt (by omega)]
    omega
  obtain ⟨q, k, r, rfl, low, high, rest⟩ := exists_digits (n := a) (by omega)
  have order := Nat.log_mono_right (b := 2) le
  rw [← Nat.log2_eq_log_two, ← Nat.log2_eq_log_two, log2_digits low high rest,
    log2_digits low' high' rest'] at order
  obtain shorter | same := Nat.lt_or_eq_of_le (Nat.le_of_add_le_add_left order)
  · -- a power of two with a bit more than the smaller number lies between the two
    calc nearest (q * 2 ^ k + r) ≤ (q + 1) * 2 ^ k := (nearest_between low high rest).2
      _ ≤ 2 ^ 53 * 2 ^ k := Nat.mul_le_mul_right _ high
      _ = 2 ^ 52 * 2 ^ (k + 1) := by rw [Nat.pow_succ, Nat.pow_succ]; ring
      _ ≤ q' * 2 ^ k' := Nat.mul_le_mul low' (Nat.pow_le_pow_right (by decide) shorter)
      _ ≤ nearest (q' * 2 ^ k' + r') := floor
  · subst same
    obtain less | rfl := Nat.lt_or_eq_of_le (show q ≤ q' by
      by_contra more
      have := Nat.mul_le_mul_right (2 ^ k) (Nat.lt_of_not_le more)
      rw [Nat.succ_mul] at this
      omega)
    · calc nearest (q * 2 ^ k + r) ≤ (q + 1) * 2 ^ k := (nearest_between low high rest).2
        _ ≤ q' * 2 ^ k := Nat.mul_le_mul_right _ less
        _ ≤ nearest (q' * 2 ^ k + r') := floor
    · rw [nearest_digits low high rest, nearest_digits low high rest']
      refine Nat.mul_le_mul_right _ ?_
      split_ifs <;> omega

/-- What has been rounded is kept. -/
theorem nearest_nearest (n : Nat) : nearest (nearest n) = nearest n := by
  by_cases small : n < 2 ^ 53
  · rw [nearest_of_lt small, nearest_of_lt small]
  obtain ⟨q, k, r, rfl, low, high, rest⟩ := exists_digits (n := n) (by omega)
  rw [nearest_digits low high rest]
  generalize carry : (if 2 * r < 2 ^ k then q else if 2 * r = 2 ^ k then q + q % 2 else q + 1) = c
  have bound : c ≤ 2 ^ 53 := by
    rw [← carry]
    split_ifs <;> omega
  obtain rfl | less := Nat.eq_or_lt_of_le bound
  · rw [← Nat.pow_add, nearest_two_pow]
  · exact nearest_exact less k

section Large

/-- A number of more than 53 bits that is kept ends in zeros. -/
theorem exists_kept_digits (kept : nearest n = n) (large : 2 ^ 53 ≤ n) :
    ∃ q k, n = q * 2 ^ (k + 1) ∧ 2 ^ 52 ≤ q ∧ q < 2 ^ 53 := by
  obtain ⟨q, k, r, rfl, low, high, rest⟩ := exists_digits (n := n) (by omega)
  have divides : 2 ^ k ∣ q * 2 ^ k + r := by
    rw [← kept, nearest_digits low high rest]
    exact Nat.dvd_mul_left _ _
  obtain rfl : r = 0 :=
    Nat.eq_zero_of_dvd_of_lt ((Nat.dvd_add_right (Nat.dvd_mul_left _ _)).mp divides) rest
  obtain _ | k := k
  · omega
  · exact ⟨q, k, rfl, low, high⟩

/-- Rounding an odd number of more than 53 bits gives a multiple of four: it stands in the
middle of two numbers, or the rounding takes at least two bits from it. -/
theorem four_dvd_nearest (odd : n % 2 = 1) (large : 2 ^ 53 < n) : 4 ∣ nearest n := by
  obtain ⟨q, k, r, rfl, low, high, rest⟩ := exists_digits (n := n) (by omega)
  rw [nearest_digits low high rest]
  obtain _ | _ | k := k
  · omega
  · obtain rfl : r = 1 := by omega
    simp only [Nat.zero_add, Nat.pow_one, Nat.mul_one, Nat.lt_irrefl, if_false, if_true]
    omega
  · exact Nat.dvd_mul_left_of_dvd (Nat.pow_dvd_pow 2 (Nat.le_add_left 2 k)) _

/-- A large multiple of four that is kept takes the next number to itself. -/
theorem nearest_add_one (four : 4 ∣ n) (kept : nearest n = n) (large : 2 ^ 53 ≤ n) :
    nearest (n + 1) = n := by
  obtain ⟨q, k, rfl, low, high⟩ := exists_kept_digits kept large
  rw [nearest_digits low high (Nat.one_lt_two_pow k.succ_ne_zero)]
  obtain _ | k := k
  · simp only [Nat.zero_add, Nat.pow_one, Nat.mul_one, Nat.lt_irrefl, if_false, if_true]
    omega
  · rw [if_pos]
    have positive := Nat.two_pow_pos k
    omega

/-- The number in front of a number with zeros at its end goes to that number, unless it stands
in the middle and that number is odd. -/
theorem nearest_pred (low : 2 ^ 52 ≤ q) (high : q < 2 ^ 53) (even : k = 0 → q % 2 = 1) :
    nearest ((q + 1) * 2 ^ (k + 1) - 1) = (q + 1) * 2 ^ (k + 1) := by
  have positive := Nat.two_pow_pos k
  have split : (q + 1) * 2 ^ (k + 1) - 1 = q * 2 ^ (k + 1) + (2 ^ (k + 1) - 1) := by
    rw [Nat.succ_mul, Nat.add_sub_assoc (Nat.two_pow_pos _)]
  rw [split, nearest_digits low high (by omega)]
  obtain _ | k := k
  · simp [even rfl]
  · rw [if_neg (by omega), if_neg (by omega)]

/-- A large multiple of four that is kept takes the number before to itself. -/
theorem nearest_sub_one (four : 4 ∣ n) (kept : nearest n = n) (large : 2 ^ 53 < n) :
    nearest (n - 1) = n := by
  obtain ⟨q, k, rfl, low, high⟩ := exists_kept_digits kept large.le
  obtain rfl | less := Nat.eq_or_lt_of_le low
  · -- a power of two: the number before has one bit less
    obtain _ | k := k
    · omega
    have shorter : 2 ^ 52 * 2 ^ (k + 1 + 1) = (2 ^ 53 - 1 + 1) * 2 ^ (k + 1) := by
      rw [Nat.pow_succ 2 (k + 1)]
      omega
    rw [shorter, nearest_pred (by decide) (by decide) (fun _ => by decide)]
  · have pred : q - 1 + 1 = q := by omega
    have next := nearest_pred (q := q - 1) (k := k) (by omega) (by omega) (by
      rintro rfl
      omega)
    rwa [pred] at next

end Large

/-- Rounding of numbers with a sign: both signs are rounded alike. -/
def rounded (z : Int) : Int :=
  z.sign * nearest z.natAbs

section Signed

variable {z : Int}

@[simp] theorem rounded_neg (z : Int) : rounded (-z) = -rounded z := by
  simp [rounded]

theorem rounded_natCast (n : Nat) : rounded n = nearest n := by
  obtain rfl | positive := Nat.eq_zero_or_pos n
  · simp [rounded, nearest_of_lt]
  · rw [rounded, Int.sign_eq_one_of_pos (by omega), Int.natAbs_natCast, one_mul]

theorem rounded_nonneg (positive : 0 ≤ z) : rounded z = nearest z.natAbs := by
  rw [← rounded_natCast, Int.natAbs_of_nonneg positive]

theorem rounded_nonpos (negative : z ≤ 0) : rounded z = -nearest z.natAbs := by
  have mirrored := rounded_nonneg (z := -z) (by omega)
  rw [rounded_neg, Int.natAbs_neg] at mirrored
  omega

theorem natAbs_rounded (z : Int) : (rounded z).natAbs = nearest z.natAbs := by
  obtain positive | negative := le_total 0 z
  · rw [rounded_nonneg positive, Int.natAbs_natCast]
  · rw [rounded_nonpos negative, Int.natAbs_neg, Int.natAbs_natCast]

theorem rounded_mono {a b : Int} (le : a ≤ b) : rounded a ≤ rounded b := by
  obtain left | left := le_total 0 a
  · rw [rounded_nonneg left, rounded_nonneg (by omega)]
    exact Int.ofNat_le.mpr (nearest_mono (by omega))
  · obtain right | right := le_total 0 b
    · rw [rounded_nonpos left, rounded_nonneg right]
      omega
    · rw [rounded_nonpos left, rounded_nonpos right]
      have := nearest_mono (show b.natAbs ≤ a.natAbs by omega)
      omega

theorem natAbs_scale (z : Int) (j : Nat) : (z * 2 ^ j).natAbs = z.natAbs * 2 ^ j := by
  rw [Int.natAbs_mul, Int.natAbs_pow]
  rfl

theorem rounded_scale (z : Int) (j : Nat) : rounded (z * 2 ^ j) = rounded z * 2 ^ j := by
  have positive : (0 : Int) < 2 ^ j := Int.pow_pos (by decide)
  rw [rounded, rounded, Int.sign_mul, Int.sign_eq_one_of_pos positive, natAbs_scale, nearest_scale]
  push_cast
  rw [Int.mul_one, Int.mul_assoc]

theorem rounded_rounded (z : Int) : rounded (rounded z) = rounded z := by
  obtain positive | negative := le_total 0 z
  · rw [rounded_nonneg positive, rounded_natCast, nearest_nearest]
  · rw [rounded_nonpos negative, rounded_neg, rounded_natCast, nearest_nearest]

/-- Whole numbers up to the fifty-third power of two are kept. -/
theorem rounded_of_natAbs_le (small : z.natAbs ≤ 2 ^ 53) : rounded z = z := by
  have kept : nearest z.natAbs = z.natAbs := by
    obtain same | less := Nat.eq_or_lt_of_le small
    · rw [same, nearest_two_pow]
    · exact nearest_of_lt less
  rw [rounded, kept, Int.sign_mul_natAbs]

end Signed

section Steps

variable {u : Int} {j : Nat}

/-- A step of one unit moves a number on that is less than the fifty-third power of two: there
is a whole number of units on the way, and rounding does not fall behind it. -/
theorem lt_rounded_step (low : -2 ^ 53 * 2 ^ j ≤ u) (high : u < 2 ^ 53 * 2 ^ j) :
    u < rounded (u + 2 ^ j) := by
  have positive : (0 : Int) < 2 ^ j := Int.pow_pos (by decide)
  have floor := Int.ediv_mul_le u positive.ne'
  have ceiling := Int.lt_ediv_add_one_mul_self u positive
  have least : -2 ^ 53 ≤ u / 2 ^ j := (Int.le_ediv_iff_mul_le positive).mpr low
  have most : u / 2 ^ j < 2 ^ 53 := (Int.ediv_lt_iff_lt_mul positive).mpr high
  calc u < (u / 2 ^ j + 1) * 2 ^ j := ceiling
    _ = rounded ((u / 2 ^ j + 1) * 2 ^ j) := by
      rw [rounded_scale, rounded_of_natAbs_le (by omega)]
    _ ≤ rounded (u + 2 ^ j) := rounded_mono (by rw [Int.add_mul]; omega)

/-- No step leads beyond the fifty-third power of two, since half the distance to the number
behind it is rounded down. -/
theorem rounded_step_le (high : u ≤ 2 ^ 53 * 2 ^ j) : rounded (u + 2 ^ j) ≤ 2 ^ 53 * 2 ^ j := by
  have middle : rounded (2 ^ 53 + 1) = 2 ^ 53 := by decide +kernel
  calc rounded (u + 2 ^ j) ≤ rounded ((2 ^ 53 + 1) * 2 ^ j) :=
        rounded_mono (by rw [Int.add_mul]; omega)
    _ = 2 ^ 53 * 2 ^ j := by rw [rounded_scale, middle]

/-- A step never leads back. -/
theorem le_rounded_step (kept : rounded u = u) : u ≤ rounded (u + 2 ^ j) := by
  have positive : (0 : Int) < 2 ^ j := Int.pow_pos (by decide)
  calc u = rounded u := kept.symm
    _ ≤ rounded (u + 2 ^ j) := rounded_mono (by omega)

/-- A kept number beyond the fifty-third power of two is an even number of units. -/
theorem exists_even_of_kept (kept : rounded u = u) (large : 2 ^ 53 * 2 ^ j < |u|) :
    ∃ v : Int, u = 2 * v * 2 ^ j := by
  have kept' : nearest u.natAbs = u.natAbs := by rw [← natAbs_rounded, kept]
  have positive := Nat.two_pow_pos j
  have large' : 2 ^ 53 * 2 ^ j < u.natAbs := by
    zify
    exact large
  obtain ⟨q, k, same, -, high⟩ := exists_kept_digits kept' (by omega)
  have longer : j < k + 1 := by
    by_contra short
    have := Nat.mul_le_mul high.le (Nat.pow_le_pow_right (n := 2) (by decide) (not_lt.mp short))
    omega
  have divides : 2 ^ (j + 1) ∣ u.natAbs := by
    rw [same]
    exact Nat.dvd_mul_left_of_dvd (Nat.pow_dvd_pow 2 longer) q
  obtain ⟨v, rfl⟩ := Int.natCast_dvd.mpr divides
  exact ⟨v, by push_cast; ring⟩

/-- A step moves also the last kept number before the negative power of two. -/
theorem lt_rounded_step_of_kept (kept : rounded u = u) (low : -(2 ^ 53 + 2) * 2 ^ j ≤ u)
    (high : u < 2 ^ 53 * 2 ^ j) : u < rounded (u + 2 ^ j) := by
  have positive : (0 : Int) < 2 ^ j := Int.pow_pos (by decide)
  obtain inner | outer := le_or_gt (-2 ^ 53 * 2 ^ j) u
  · exact lt_rounded_step inner high
  · obtain ⟨v, rfl⟩ := exists_even_of_kept (j := j) kept (lt_abs.mpr (by omega))
    have least : -(2 ^ 53 + 2) ≤ 2 * v := Int.le_of_mul_le_mul_right low positive
    have most : 2 * v < -2 ^ 53 := Int.lt_of_mul_lt_mul_right outer positive.le
    obtain rfl : v = -(2 ^ 52 + 1) := by omega
    have next : 2 * -(2 ^ 52 + 1) * 2 ^ j + 2 ^ j = -(2 ^ 53 + 1) * (2 ^ j : Int) := by ring
    have middle : rounded (-(2 ^ 53 + 1)) = -2 ^ 53 := by decide +kernel
    rw [next, rounded_scale, middle]
    exact Int.mul_lt_mul_of_pos_right (by decide) positive

/-- What one step from a large even number comes to, no further step leaves: it is a multiple of
four. Next to the negative power of two numbers get closer, and steps work again. -/
theorem rounded_settles {v : Int} (large : 2 ^ 53 < 2 * v ∨ 2 * v < -(2 ^ 53 + 2)) :
    rounded (rounded (2 * v + 1) + 1) = rounded (2 * v + 1) := by
  obtain up | down := large
  · have four := four_dvd_nearest (n := (2 * v + 1).natAbs) (by omega) (by omega)
    have order := nearest_mono (show 2 ^ 53 ≤ (2 * v + 1).natAbs by omega)
    rw [nearest_two_pow] at order
    rw [rounded_nonneg (z := 2 * v + 1) (by omega), ← Nat.cast_succ, rounded_natCast,
      nearest_add_one four (nearest_nearest _) order]
  · have four := four_dvd_nearest (n := (2 * v + 1).natAbs) (by omega) (by omega)
    have order := nearest_mono (show 2 ^ 53 + 3 ≤ (2 * v + 1).natAbs by omega)
    have middle : nearest (2 ^ 53 + 3) = 2 ^ 53 + 4 := by decide +kernel
    rw [middle] at order
    have before := nearest_sub_one four (nearest_nearest _) (by omega)
    rw [rounded_nonpos (z := 2 * v + 1) (by omega)]
    have swap : -(nearest (2 * v + 1).natAbs : Int) + 1 =
        -((nearest (2 * v + 1).natAbs - 1 : Nat) : Int) := by omega
    rw [swap, rounded_neg, rounded_natCast, before]

/-- Beyond the fifty-third power of two, all steps but the first are in vain. -/
theorem rounded_step_settles (kept : rounded u = u)
    (large : 2 ^ 53 * 2 ^ j < u ∨ u < -(2 ^ 53 + 2) * 2 ^ j) :
    rounded (rounded (u + 2 ^ j) + 2 ^ j) = rounded (u + 2 ^ j) := by
  have positive : (0 : Int) < 2 ^ j := Int.pow_pos (by decide)
  obtain ⟨v, rfl⟩ := exists_even_of_kept (j := j) kept (lt_abs.mpr (by omega))
  have scaled : 2 * v * 2 ^ j + 2 ^ j = (2 * v + 1) * 2 ^ j := by ring
  have next : rounded (2 * v + 1) * 2 ^ j + 2 ^ j = (rounded (2 * v + 1) + 1) * 2 ^ j := by ring
  rw [scaled, rounded_scale, next, rounded_scale, rounded_settles]
  rwa [Int.mul_lt_mul_right positive, Int.mul_lt_mul_right positive] at large

end Steps

end Number

end PixelScript
