import PixelScript.Value.Range
import PixelScript.Proofs.Value.Floats

/-! What ranges give out. Counting by ones rounds every sum, so far from zero it comes to rest, and
a range ends when the place of rest is past its end. Ranges of integers are counted exactly. -/
namespace PixelScript

namespace Number

section Climbing

/-- Counting up by ones, where a one is `2 ^ j` units and every sum is rounded. -/
def climb (j : Nat) (u : Int) : Nat → Int
  | 0 => u
  | n + 1 => rounded (climb j u n + 2 ^ j)

/-- Where counting up comes to rest. -/
def summit (j : Nat) (u : Int) : Int :=
  if -(2 ^ 53 + 2) * 2 ^ j ≤ u ∧ u ≤ 2 ^ 53 * 2 ^ j then 2 ^ 53 * 2 ^ j else rounded (u + 2 ^ j)

variable {j : Nat} {u : Int}

theorem climb_kept (kept : rounded u = u) (n : Nat) : rounded (climb j u n) = climb j u n := by
  cases n with
  | zero => exact kept
  | succ n => exact rounded_rounded _

theorem climb_mono (kept : rounded u = u) : Monotone (climb j u) :=
  monotone_nat_of_le_succ fun n => le_rounded_step (climb_kept kept n)

/-- Integers are counted exactly up to the fifty-third power of two. -/
theorem climb_integer {z : Int} {n : Nat} (low : -2 ^ 53 ≤ z) (high : z + n ≤ 2 ^ 53) :
    climb j (z * 2 ^ j) n = (z + n) * 2 ^ j := by
  induction n with
  | zero => rw [climb, Nat.cast_zero, Int.add_zero]
  | succ n ih =>
    have next : (z + n) * 2 ^ j + 2 ^ j = (z + (n + 1 : Nat)) * 2 ^ j := by
      push_cast
      ring
    rw [climb, ih (by omega), next, rounded_scale, rounded_of_natAbs_le (by omega)]

/-- Outside of the numbers that are counted well, the first step is the only one. -/
theorem climb_settled (kept : rounded u = u)
    (outside : ¬(-(2 ^ 53 + 2) * 2 ^ j ≤ u ∧ u ≤ 2 ^ 53 * 2 ^ j)) (n : Nat) :
    climb j u (n + 1) = rounded (u + 2 ^ j) := by
  induction n with
  | zero => rfl
  | succ n ih => rw [climb, ih, rounded_step_settles kept (by omega)]

theorem climb_le_summit (kept : rounded u = u) (n : Nat) : climb j u n ≤ summit j u := by
  rw [summit]
  split
  next inside =>
    induction n with
    | zero => exact inside.2
    | succ n ih => exact rounded_step_le ih
  next outside => exact (climb_mono kept n.le_succ).trans_eq (climb_settled kept outside n)

theorem climb_lt_succ (kept : rounded u = u) {n : Nat} (below : climb j u n < summit j u) :
    climb j u n < climb j u (n + 1) := by
  rw [summit] at below
  split at below
  next inside =>
    exact lt_rounded_step_of_kept (climb_kept kept n)
      (inside.1.trans (climb_mono kept n.zero_le)) below
  next outside => rwa [climb_settled kept outside]

/-- Counting up comes to its place of rest: before it every step moves on. -/
theorem exists_climb_eq_summit (kept : rounded u = u) : ∃ n, climb j u n = summit j u := by
  by_contra! never
  have below (n : Nat) : climb j u n < summit j u := (climb_le_summit kept n).lt_of_ne (never n)
  have grows (n : Nat) : u + n ≤ climb j u n := by
    induction n with
    | zero => exact (Int.add_zero u).le
    | succ n ih =>
      have moved := climb_lt_succ kept (below n)
      omega
  have last := grows (summit j u - u).toNat
  have less := below (summit j u - u).toNat
  omega

theorem climb_lt (kept : rounded u = u) {m n : Nat} (less : m < n)
    (below : climb j u n < summit j u) : climb j u m < climb j u n :=
  calc climb j u m < climb j u (m + 1) :=
        climb_lt_succ kept ((climb_mono kept less.le).trans_lt below)
    _ ≤ climb j u n := climb_mono kept less

theorem climb_rested (kept : rounded u = u) {m n : Nat} (rested : climb j u n = summit j u)
    (later : n ≤ m) : climb j u m = summit j u :=
  (climb_le_summit kept m).antisymm (rested ▸ climb_mono kept later)

theorem exists_first_climb (kept : rounded u = u) {goal : Int} (reached : goal ≤ summit j u) :
    ∃ count, ∀ n, goal ≤ climb j u n ↔ count ≤ n := by
  obtain ⟨n, rested⟩ := exists_climb_eq_summit (j := j) kept
  have some : ∃ n, goal ≤ climb j u n := ⟨n, rested ▸ reached⟩
  refine ⟨Nat.find some, fun n => ⟨Nat.find_min' some, fun later => ?_⟩⟩
  exact (Nat.find_spec some).trans (climb_mono kept later)

end Climbing

end Number

namespace Range
open Number

/-- The answers of a range that is advanced again and again. -/
def answer : Range → Nat → Option Float
  | range, 0 => range.advance.1
  | range, n + 1 => range.advance.2.answer n

/-- The values that are counted, whether the range has ended or not. -/
def counted (range : Range) : Nat → Float
  | 0 => range.next
  | n + 1 => range.counted n + range.step

theorem answer_ended {range : Range} (ended : (range.done || range.isPast range.next) = true)
    (n : Nat) : range.answer n = none := by
  induction n generalizing range with
  | zero => rw [answer, advance, if_pos ended]
  | succ n ih =>
    rw [answer, advance, if_pos ended]
    exact ih rfl

theorem counted_advance (range : Range) (n : Nat) :
    { range with next := range.next + range.step }.counted n = range.counted (n + 1) := by
  induction n with
  | zero => rfl
  | succ n ih => exact congrArg (· + range.step) ih

theorem advance_running {range : Range} (running : range.done = false)
    (before : ¬range.isPast range.next) :
    range.advance = (some range.next, { range with next := range.next + range.step }) := by
  rw [advance, if_neg (by rwa [running, Bool.false_or])]

/-- A range answers with the values that are counted, if none comes back from past the end. -/
theorem answer_eq {range : Range} (running : range.done = false)
    (onward : ∀ m n, m ≤ n → range.isPast (range.counted m) → range.isPast (range.counted n))
    (n : Nat) :
    range.answer n = if range.isPast (range.counted n) then none else some (range.counted n) := by
  induction n generalizing range with
  | zero =>
    change range.advance.1 = if range.isPast range.next then none else some range.next
    rw [advance, running, Bool.false_or, apply_ite Prod.fst]
  | succ n ih =>
    by_cases past : range.isPast range.next
    · rw [if_pos (onward 0 (n + 1) (Nat.zero_le _) past),
        answer_ended (by rw [past, Bool.or_true])]
    · -- the advanced range counts the same values, all but the first
      rw [answer, advance_running running past, ← counted_advance]
      refine ih running fun m n le => ?_
      rw [counted_advance, counted_advance]
      exact onward (m + 1) (n + 1) (Nat.succ_le_succ le)

/-- The direction from one number to another. -/
def heading (start last : Float) : Int :=
  if start ≤ last then 1 else -1

/-- How far a range has come in its direction after some steps. -/
def progress (start last : Float) : Nat → Int :=
  climb 1074 (heading start last * units start)

/-- The least progress that is past the end of a range. -/
def finish (start last : Float) (inclusive : Bool) : Int :=
  heading start last * units last + inclusive.toNat

section Directions

variable {start last : Float} {inclusive : Bool}

theorem heading_eq (start last : Float) : heading start last = 1 ∨ heading start last = -1 := by
  unfold heading
  split_ifs
  · exact .inl rfl
  · exact .inr rfl

theorem natAbs_heading (start last : Float) : (heading start last).natAbs = 1 := by
  obtain up | down := heading_eq start last <;> omega

theorem rounded_heading (z : Int) :
    rounded (heading start last * z) = heading start last * rounded z := by
  obtain up | down := heading_eq start last
  · rw [up, Int.one_mul, Int.one_mul]
  · rw [down, Int.neg_one_mul, Int.neg_one_mul, rounded_neg]

theorem heading_mul_heading (z : Int) : heading start last * (heading start last * z) = z := by
  obtain up | down := heading_eq start last
  · rw [up, Int.one_mul, Int.one_mul]
  · rw [down, Int.neg_one_mul, Int.neg_one_mul, Int.neg_neg]

theorem start_kept (last : Float) (finite : start.isFinite) :
    rounded (heading start last * units start) = heading start last * units start := by
  rw [rounded_heading, units_kept finite]

/-- A step in the direction of a range. -/
theorem progress_succ (n : Nat) :
    rounded (heading start last * progress start last n + heading start last * 2 ^ 1074) =
      heading start last * progress start last (n + 1) := by
  rw [← Int.mul_add, rounded_heading]
  rfl

theorem le_of_lt_finish {z : Int} (before : z < finish start last inclusive) :
    z ≤ heading start last * units last := by
  have one := Bool.toNat_le inclusive
  rw [finish] at before
  omega

variable (start last) {x y : Float} (left : x.isFinite) (right : y.isFinite)
include left right

theorem ahead_iff : (if start ≤ last then x < y else y < x) ↔
    heading start last * units x < heading start last * units y := by
  unfold heading
  split_ifs
  · rw [lt_iff left right, Int.one_mul, Int.one_mul]
  · rw [lt_iff right left]
    omega

theorem upto_iff : (if start ≤ last then x ≤ y else y ≤ x) ↔
    heading start last * units x ≤ heading start last * units y := by
  unfold heading
  split_ifs
  · rw [le_iff left right, Int.one_mul, Int.one_mul]
  · rw [le_iff right left]
    omega

end Directions

section Finite

variable {start last : Float} {inclusive : Bool} (startFinite : start.isFinite)
  (lastFinite : last.isFinite)

theorem between_step : (between start last inclusive).step = .ofInt (heading start last) := by
  rw [between, heading, apply_ite Float.ofInt]
  rfl

theorem step_positive : (between start last inclusive).step > 0 ↔ start ≤ last := by
  rw [between]
  dsimp only
  split_ifs with forward
  · exact iff_of_true rfl forward
  · exact iff_of_false Bool.false_ne_true forward

/-- Past the end is ahead of it, or there already if the end does not belong to the range. -/
theorem isPast_eq (x : Float) :
    (between start last inclusive).isPast x ↔
      if inclusive then if start ≤ last then last < x else x < last
      else if start ≤ last then last ≤ x else x ≤ last := by
  by_cases forward : start ≤ last
  · rw [isPast, if_pos (step_positive.mpr forward), if_pos forward, if_pos forward]
    cases inclusive <;> exact decide_eq_true_iff
  · rw [isPast, if_neg (mt step_positive.mp forward), if_neg forward, if_neg forward]
    cases inclusive <;> exact decide_eq_true_iff

include lastFinite in
theorem isPast_iff {x : Float} (finite : x.isFinite) :
    (between start last inclusive).isPast x ↔
      finish start last inclusive ≤ heading start last * units x := by
  rw [isPast_eq, ahead_iff start last lastFinite finite, upto_iff start last lastFinite finite]
  cases inclusive with
  | false => rw [finish, Bool.toNat_false, Nat.cast_zero, Int.add_zero, if_neg Bool.false_ne_true]
  | true => rw [finish, Bool.toNat_true, Nat.cast_one, Int.add_one_le_iff, if_pos rfl]

include startFinite

theorem counted_isFinite (n : Nat) : ((between start last inclusive).counted n).isFinite := by
  induction n with
  | zero => exact startFinite
  | succ n ih =>
    rw [counted, between_step]
    exact step_isFinite ih (natAbs_heading start last)

theorem units_counted (n : Nat) :
    units ((between start last inclusive).counted n) =
      heading start last * progress start last n := by
  induction n with
  | zero => exact (heading_mul_heading _).symm
  | succ n ih =>
    rw [counted, between_step, units_step (counted_isFinite startFinite n)
      (natAbs_heading start last), ih, progress_succ]

theorem counted_packs (n : Nat) :
    Packs ((between start last inclusive).counted (n + 1))
      (heading start last * progress start last (n + 1)) := by
  have packs := step_packs (counted_isFinite startFinite n : Float.isFinite
    ((between start last inclusive).counted n)) (natAbs_heading start last)
  rwa [units_counted startFinite, progress_succ, ← between_step] at packs

theorem progress_mono : Monotone (progress start last) :=
  climb_mono (start_kept last startFinite)

include lastFinite

/-- A range answers with what it counts until it comes to its finish. -/
theorem answer_between (n : Nat) :
    (between start last inclusive).answer n =
      if finish start last inclusive ≤ progress start last n then none
      else some ((between start last inclusive).counted n) := by
  have past (n : Nat) : (between start last inclusive).isPast
      ((between start last inclusive).counted n) ↔
        finish start last inclusive ≤ progress start last n := by
    rw [isPast_iff lastFinite (counted_isFinite startFinite n), units_counted startFinite,
      heading_mul_heading]
  have running : (between start last inclusive).done = false := by
    change (start.isNaN || last.isNaN) = false
    rw [isNaN_of_isFinite startFinite, isNaN_of_isFinite lastFinite, Bool.or_false]
  rw [answer_eq running]
  · simp only [past]
  · intro m n le
    rw [past, past]
    exact fun ended => ended.trans (progress_mono startFinite le)

theorem answer_eq_none {n : Nat} : (between start last inclusive).answer n = none ↔
    finish start last inclusive ≤ progress start last n := by
  rw [answer_between startFinite lastFinite, ite_eq_left_iff]
  simp

theorem answer_eq_some {n : Nat} {x : Float} :
    (between start last inclusive).answer n = some x ↔
      progress start last n < finish start last inclusive ∧
        (between start last inclusive).counted n = x := by
  rw [answer_between startFinite lastFinite]
  simp

end Finite

/-- The number at which counting comes to rest. Sums move on from a start between the powers of
two, and from the number next to the one behind. From any other start only the first sum can. -/
def rest (start last : Float) : Float :=
  if start ≤ last then
    if -9007199254740994 ≤ start ∧ start ≤ 9007199254740992 then 9007199254740992 else start + 1
  else
    if -9007199254740992 ≤ start ∧ start ≤ 9007199254740994 then -9007199254740992 else start + -1

/-- A range ends for good, and before that its values move on strictly from the start towards
the end. -/
structure Completes (start last : Float) (inclusive : Bool) : Prop where
  ends : ∃ count, ∀ n, (between start last inclusive).answer n = none ↔ count ≤ n
  first : ∀ x, (between start last inclusive).answer 0 = some x → x = start
  onward : ∀ i j x y, i < j → (between start last inclusive).answer i = some x →
    (between start last inclusive).answer j = some y → if start ≤ last then x < y else y < x
  within : ∀ n x, (between start last inclusive).answer n = some x →
    start ≤ x ∧ x ≤ last ∨ last ≤ x ∧ x ≤ start

section Rest

variable {start last : Float} {inclusive : Bool} (startFinite : start.isFinite)
  (lastFinite : last.isFinite)
include startFinite

theorem rises_iff : -9007199254740994 ≤ start ∧ start ≤ 9007199254740992 ↔
    -(2 ^ 53 + 2) * 2 ^ 1074 ≤ units start ∧ units start ≤ 2 ^ 53 * 2 ^ 1074 := by
  have low : units (-9007199254740994) = -(2 ^ 53 + 2) * 2 ^ 1074 := by decide +kernel
  have high : units 9007199254740992 = 2 ^ 53 * 2 ^ 1074 := by decide +kernel
  rw [le_iff rfl startFinite, le_iff startFinite rfl, low, high]

theorem falls_iff : -9007199254740992 ≤ start ∧ start ≤ 9007199254740994 ↔
    -(2 ^ 53 + 2) * 2 ^ 1074 ≤ -units start ∧ -units start ≤ 2 ^ 53 * 2 ^ 1074 := by
  have low : units (-9007199254740992) = -2 ^ 53 * 2 ^ 1074 := by decide +kernel
  have high : units 9007199254740994 = (2 ^ 53 + 2) * 2 ^ 1074 := by decide +kernel
  rw [le_iff rfl startFinite, le_iff startFinite rfl, low, high]
  omega

theorem rest_isFinite : (rest start last).isFinite := by
  have one : (-1 : Float) = .ofInt (-1) := rfl
  unfold rest
  split_ifs
  · rfl
  · exact step_isFinite startFinite (s := 1) rfl
  · rfl
  · rw [one]
    exact step_isFinite startFinite rfl

theorem units_rest : units (rest start last) =
    heading start last * summit 1074 (heading start last * units start) := by
  unfold rest heading summit
  by_cases forward : start ≤ last
  · have one : (1 : Float) = .ofInt 1 := rfl
    have next := units_step startFinite (s := 1) rfl
    rw [Int.one_mul] at next
    rw [if_pos forward, if_pos forward, Int.one_mul, Int.one_mul]
    by_cases rises : -9007199254740994 ≤ start ∧ start ≤ 9007199254740992
    · rw [if_pos rises, if_pos ((rises_iff startFinite).mp rises)]
      decide +kernel
    · rw [if_neg rises, if_neg (mt (rises_iff startFinite).mpr rises), one, next]
  · have one : (-1 : Float) = .ofInt (-1) := rfl
    have next := units_step startFinite (s := -1) rfl
    -- counting down is counting up in the mirror
    have mirrored : units start + -1 * 2 ^ 1074 = -(-units start + 2 ^ 1074) := by
      rw [Int.neg_add, Int.neg_neg, Int.neg_one_mul]
    rw [mirrored, rounded_neg] at next
    rw [if_neg forward, if_neg forward, Int.neg_one_mul, Int.neg_one_mul]
    by_cases falls : -9007199254740992 ≤ start ∧ start ≤ 9007199254740994
    · rw [if_pos falls, if_pos ((falls_iff startFinite).mp falls)]
      decide +kernel
    · rw [if_neg falls, if_neg (mt (falls_iff startFinite).mpr falls), one, next]

include lastFinite

theorem isPast_rest : (between start last inclusive).isPast (rest start last) ↔
    finish start last inclusive ≤ summit 1074 (heading start last * units start) := by
  rw [isPast_iff lastFinite (rest_isFinite startFinite), units_rest startFinite,
    heading_mul_heading]

theorem completes_of_isPast_rest (past : (between start last inclusive).isPast (rest start last)) :
    Completes start last inclusive where
  ends := by
    simp only [answer_eq_none startFinite lastFinite]
    exact exists_first_climb (start_kept last startFinite)
      ((isPast_rest startFinite lastFinite).mp past)
  first := by
    intro x given
    exact ((answer_eq_some startFinite lastFinite).mp given).2.symm
  onward := by
    intro i j x y less given given'
    obtain ⟨-, rfl⟩ := (answer_eq_some startFinite lastFinite).mp given
    obtain ⟨before, rfl⟩ := (answer_eq_some startFinite lastFinite).mp given'
    rw [ahead_iff start last (counted_isFinite startFinite i) (counted_isFinite startFinite j),
      units_counted startFinite, units_counted startFinite, heading_mul_heading,
      heading_mul_heading]
    exact climb_lt (start_kept last startFinite) less
      (before.trans_le ((isPast_rest startFinite lastFinite).mp past))
  within := by
    intro n x given
    obtain ⟨before, rfl⟩ := (answer_eq_some startFinite lastFinite).mp given
    have finite : ((between start last inclusive).counted n).isFinite :=
      counted_isFinite startFinite n
    have after := upto_iff start last startFinite finite
    have upto := upto_iff start last finite lastFinite
    rw [units_counted startFinite, heading_mul_heading] at after upto
    have least := after.mpr (progress_mono startFinite n.zero_le)
    have most := upto.mpr (le_of_lt_finish before)
    split_ifs at least most
    · exact .inl ⟨least, most⟩
    · exact .inr ⟨most, least⟩

/-- Otherwise the range stays where counting comes to rest. -/
theorem repeats_of_not_isPast_rest
    (short : ¬(between start last inclusive).isPast (rest start last)) :
    ∃ n x, x == rest start last ∧
      ∀ m, n ≤ m → (between start last inclusive).answer m = some x := by
  rw [isPast_rest startFinite lastFinite, not_le] at short
  have kept := start_kept last startFinite
  obtain ⟨n, rested⟩ := exists_climb_eq_summit (j := 1074) kept
  have stays (m : Nat) (later : n ≤ m) : progress start last m =
      summit 1074 (heading start last * units start) := climb_rested kept rested later
  refine ⟨n + 1, (between start last inclusive).counted (n + 1), ?_, ?_⟩
  · rw [beq_iff (counted_isFinite startFinite _) (rest_isFinite startFinite),
      units_counted startFinite, units_rest startFinite, stays _ n.le_succ]
  · intro m later
    obtain ⟨m, rfl⟩ := Nat.exists_eq_add_of_le' (Nat.le_of_add_left_le later)
    -- a sum has one packed form, the start may be a zero of either sign
    have packs : Packs ((between start last inclusive).counted (m + 1)) _ :=
      counted_packs startFinite m
    have packs' : Packs ((between start last inclusive).counted (n + 1)) _ :=
      counted_packs startFinite n
    rw [stays _ (by omega)] at packs packs'
    rw [answer_eq_some startFinite lastFinite, stays _ (by omega)]
    exact ⟨short, packs.unique packs'⟩

end Rest

/-- A range between finite numbers completes if the number at which counting comes to rest is past
its end. If it is not, the range gives out that number for good. -/
theorem between_completes_iff {start last : Float} {inclusive : Bool}
    (startFinite : start.isFinite) (lastFinite : last.isFinite) :
    (Completes start last inclusive ↔ (between start last inclusive).isPast (rest start last)) ∧
      (¬(between start last inclusive).isPast (rest start last) →
        ∃ n x, x == rest start last ∧
          ∀ m, n ≤ m → (between start last inclusive).answer m = some x) := by
  refine ⟨⟨fun completes => ?_, completes_of_isPast_rest startFinite lastFinite⟩,
    repeats_of_not_isPast_rest startFinite lastFinite⟩
  by_contra short
  obtain ⟨count, ended⟩ := completes.ends
  obtain ⟨n, x, -, given⟩ := repeats_of_not_isPast_rest startFinite lastFinite short
  have none := (ended (max count n)).mpr (le_max_left ..)
  rw [given _ (le_max_right ..)] at none
  exact Option.some_ne_none x none

/-- A range that ends at the place of rest completes without it, and never with it. -/
theorem completes_before_rest :
    ((9007199254740990 : Float).isFinite ∧ (9007199254740992 : Float).isFinite) ∧
      Completes 9007199254740990 9007199254740992 false ∧
        ¬Completes 9007199254740990 9007199254740992 true :=
  ⟨⟨rfl, rfl⟩, (between_completes_iff rfl rfl).1.mpr (by decide +kernel),
    fun completes => absurd ((between_completes_iff rfl rfl).1.mp completes) (by decide +kernel)⟩

/-- The sum of the fifty-third power of two and one is rounded back, so the range of this single
number gives it out for good. -/
theorem not_completes_at_rest : ¬Completes 9007199254740992 9007199254740992 true := by
  intro completes
  have same : (between 9007199254740992 9007199254740992 true).advance =
      (some 9007199254740992, between 9007199254740992 9007199254740992 true) := rfl
  have given (n : Nat) : (between 9007199254740992 9007199254740992 true).answer n =
      some 9007199254740992 := by
    induction n with
    | zero => rw [answer, same]
    | succ n ih =>
      rw [answer, same]
      exact ih
  obtain ⟨count, ended⟩ := completes.ends
  have none := (ended count).mpr le_rfl
  rw [given] at none
  exact Option.some_ne_none _ none

section Integers

variable {start last : Float} {a b : Int} {inclusive : Bool}

theorem past_scaled {x y unit : Int} (positive : 0 < unit) :
    x * unit + inclusive.toNat ≤ y * unit ↔ x + inclusive.toNat ≤ y := by
  cases inclusive with
  | false =>
    rw [Bool.toNat_false, Nat.cast_zero, Int.add_zero, Int.add_zero]
    exact Int.mul_le_mul_right positive
  | true =>
    rw [Bool.toNat_true, Nat.cast_one, Int.add_one_le_iff, Int.add_one_le_iff]
    exact Int.mul_lt_mul_right positive

variable (starts : Whole start a) (ends : Whole last b)
include starts ends

theorem heading_integers : heading start last = if a ≤ b then 1 else -1 := by
  have unit : (0 : Int) < 2 ^ 1074 := Int.pow_pos (by decide)
  have order : start ≤ last ↔ a ≤ b := by
    rw [le_iff starts.finite ends.finite, starts.units, ends.units]
    exact Int.mul_le_mul_right unit
  simp only [heading, order]

/-- Up to one step past the end every sum is exact. -/
theorem progress_integers {n : Nat} (near : n ≤ (b - a).natAbs + 1) :
    progress start last n = (heading start last * a + n) * 2 ^ 1074 := by
  have small := starts.small
  have small' := ends.small
  rw [progress, starts.units, ← Int.mul_assoc, heading_integers starts ends]
  split_ifs
  · exact climb_integer (by omega) (by omega)
  · exact climb_integer (by omega) (by omega)

/-- A range of integers is as long as the distance of its bounds, and by one longer with its
end. -/
theorem finish_le_integers (n : Nat) :
    finish start last inclusive ≤ progress start last n ↔
      (b - a).natAbs + inclusive.toNat ≤ n := by
  have unit : (0 : Int) < 2 ^ 1074 := Int.pow_pos (by decide)
  have one := Bool.toNat_le inclusive
  have distance : heading start last * b = heading start last * a + (b - a).natAbs := by
    rw [heading_integers starts ends]
    split_ifs <;> omega
  have counts {n : Nat} (near : n ≤ (b - a).natAbs + 1) :
      finish start last inclusive ≤ progress start last n ↔
        (b - a).natAbs + inclusive.toNat ≤ n := by
    rw [finish, ends.units, ← Int.mul_assoc, progress_integers starts ends near, past_scaled unit,
      distance]
    omega
  by_cases near : n ≤ (b - a).natAbs + 1
  · exact counts near
  · refine iff_of_true ?_ (by omega)
    exact ((counts le_rfl).mpr (by omega)).trans (progress_mono starts.finite (by omega))

theorem counted_integers {n : Nat} (before : n ≤ (b - a).natAbs) :
    (between start last inclusive).counted n =
      if n = 0 then start else .ofInt (if a ≤ b then a + n else a - n) := by
  obtain _ | n := n
  · rfl
  have small := starts.small
  have small' := ends.small
  have value : heading start last * (heading start last * a + (n + 1 : Nat)) =
      if a ≤ b then a + (n + 1 : Nat) else a - (n + 1 : Nat) := by
    rw [heading_integers starts ends]
    split_ifs <;> omega
  have packs : Packs ((between start last inclusive).counted (n + 1)) _ :=
    counted_packs starts.finite n
  rw [progress_integers starts ends (by omega), ← Int.mul_assoc, value] at packs
  rw [if_neg n.succ_ne_zero]
  refine packs.unique (ofInt_packs ?_)
  split_ifs <;> omega

theorem progress_injective {m n : Nat} (near : m ≤ (b - a).natAbs) (near' : n ≤ (b - a).natAbs)
    (same : progress start last m = progress start last n) : m = n := by
  have unit : (0 : Int) < 2 ^ 1074 := Int.pow_pos (by decide)
  rw [progress_integers starts ends (by omega), progress_integers starts ends (by omega)] at same
  have sums := Int.eq_of_mul_eq_mul_right unit.ne' same
  omega

end Integers

/-- Ranges of integers give out each integer from the start to the end once, and after that they
have ended for good. -/
theorem between_integers (a b : Int) {start last : Float} (inclusive : Bool)
    (small : a.natAbs < 2 ^ 53) (small' : b.natAbs < 2 ^ 53) (starts : start == .ofInt a)
    (ends : last == .ofInt b) :
    (∀ n, (between start last inclusive).answer n =
      if n < (b - a).natAbs + inclusive.toNat then
        some (if n = 0 then start else .ofInt (if a ≤ b then a + n else a - n))
      else none) ∧
    ∀ i j x y, (between start last inclusive).answer i = some x →
      (between start last inclusive).answer j = some y → x == y → i = j := by
  have whole := Whole.of_beq starts small
  have whole' := Whole.of_beq ends small'
  have one := Bool.toNat_le inclusive
  have ended (n : Nat) : finish start last inclusive ≤ progress start last n ↔ _ :=
    finish_le_integers whole whole' n
  constructor
  · intro n
    rw [answer_between whole.finite whole'.finite]
    by_cases past : (b - a).natAbs + inclusive.toNat ≤ n
    · rw [if_pos ((ended n).mpr past), if_neg past.not_gt]
    · rw [if_neg (mt (ended n).mp past), if_pos (Nat.lt_of_not_le past),
        counted_integers whole whole' (by omega)]
  · intro i j x y given given' equal
    obtain ⟨before, rfl⟩ := (answer_eq_some whole.finite whole'.finite).mp given
    obtain ⟨before', rfl⟩ := (answer_eq_some whole.finite whole'.finite).mp given'
    have early := mt (ended i).mpr before.not_ge
    have early' := mt (ended j).mpr before'.not_ge
    rw [beq_iff (counted_isFinite whole.finite i) (counted_isFinite whole.finite j),
      units_counted whole.finite, units_counted whole.finite] at equal
    have same := congrArg (heading start last * ·) equal
    simp only [heading_mul_heading] at same
    exact progress_injective whole whole' (by omega) (by omega) same

/-- Counting down to the least of these integers, the range takes one step more to end. -/
theorem between_integers_least :
    ((-9007199254740990 : Int).natAbs < 2 ^ 53 ∧ (-9007199254740991 : Int).natAbs < 2 ^ 53 ∧
      (-9007199254740990 : Float) == .ofInt (-9007199254740990) ∧
      (-9007199254740991 : Float) == .ofInt (-9007199254740991)) ∧
    (between (-9007199254740990) (-9007199254740991) true).answer 0 = some (-9007199254740990) ∧
    (between (-9007199254740990) (-9007199254740991) true).answer 1 = some (-9007199254740991) ∧
    ∀ n, (between (-9007199254740990) (-9007199254740991) true).answer (n + 2) = none := by
  have starts : (-9007199254740990 : Float) == .ofInt (-9007199254740990) := rfl
  have ends : (-9007199254740991 : Float) == .ofInt (-9007199254740991) := rfl
  have answers := (between_integers _ _ true (by decide) (by decide) starts ends).1
  refine ⟨⟨by decide, by decide, starts, ends⟩, (answers 0).trans rfl, (answers 1).trans rfl, ?_⟩
  intro n
  refine (answers (n + 2)).trans (if_neg ?_)
  rw [Bool.toNat_true]
  omega

end Range

end PixelScript
