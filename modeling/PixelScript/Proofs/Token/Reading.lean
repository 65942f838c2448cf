import Mathlib
import PixelScript.Token.Scan

/-! One reading of the scanner. What a reading takes is part of the text, and a text that
is cut behind it is read in the same way: longest match never needs what it does not
take. A failed reading is left out, since a string that does not end looks at all that
follows. -/
namespace PixelScript.Scan

/-- The longest run in front does not change if the text is cut behind it. -/
theorem takeWhile_cut {cs extra : List Char} {p : Char → Bool}
    (fits : ((cs ++ extra).takeWhile p).length ≤ cs.length) :
    (cs ++ extra).takeWhile p = cs.takeWhile p := by
  rw [List.takeWhile_append] at fits ⊢
  split at fits
  next whole =>
    rw [List.length_append] at fits
    have none : extra.takeWhile p = [] := List.eq_nil_of_length_eq_zero (by omega)
    rw [if_pos whole, none, List.append_nil]
    exact (List.IsPrefix.eq_of_length (List.takeWhile_prefix p) whole).symm
  next inside => rw [if_neg inside]

theorem length_takeWhile_le (p : Char → Bool) (cs : List Char) :
    (cs.takeWhile p).length ≤ cs.length :=
  (List.takeWhile_prefix p).length_le

theorem readNumber_le (c : Char) (cs : List Char) : (readNumber c cs).2 ≤ cs.length := by
  have whole := length_takeWhile_le Char.isDigit cs
  simp only [readNumber]
  generalize behind : cs.drop (cs.takeWhile Char.isDigit).length = later
  have length : later.length = cs.length - (cs.takeWhile Char.isDigit).length := by
    rw [← behind, List.length_drop]
  fun_cases fractionDigits later with
  | case1 digits =>
    have fraction := length_takeWhile_le Char.isDigit digits
    rw [List.length_cons] at length
    split <;> omega
  | case2 => simpa using whole

theorem fractionDigits_cut
    (fits : (if (fractionDigits (cs ++ extra)).isEmpty then 0
      else (fractionDigits (cs ++ extra)).length + 1) ≤ cs.length) :
    fractionDigits (cs ++ extra) = fractionDigits cs := by
  match cs with
  | [] =>
    -- nothing can be taken, so there is no fraction
    split at fits
    next empty => simpa [fractionDigits] using empty
    next => simp at fits
  | c :: cs =>
    by_cases point : c = '.'
    · subst point
      simp only [List.cons_append, fractionDigits] at fits ⊢
      by_cases empty : (cs ++ extra).takeWhile Char.isDigit = []
      · exact takeWhile_cut (by rw [empty]; exact Nat.zero_le _)
      · rw [if_neg (by simpa using empty)] at fits
        exact takeWhile_cut (Nat.le_of_succ_le_succ fits)
    · simp [fractionDigits, point]

theorem readNumber_cut (fits : (readNumber c (cs ++ extra)).2 ≤ cs.length) :
    readNumber c (cs ++ extra) = readNumber c cs := by
  simp only [readNumber] at fits ⊢
  have whole : (cs ++ extra).takeWhile Char.isDigit = cs.takeWhile Char.isDigit :=
    takeWhile_cut (by omega)
  have bound := length_takeWhile_le Char.isDigit cs
  rw [whole, List.drop_append_of_le_length bound] at fits ⊢
  rw [fractionDigits_cut (by rw [List.length_drop]; omega)]

theorem readWord_cut (fits : (readWord c (cs ++ extra)).2 ≤ cs.length) :
    readWord c (cs ++ extra) = readWord c cs := by
  simp only [readWord] at fits ⊢
  rw [takeWhile_cut fits]

theorem closingQuote_cons (plain : c ≠ '\\') (other : c ≠ '"') (cs : List Char) :
    closingQuote? (c :: cs) = (closingQuote? cs).map (· + 1) := by
  rw [closingQuote?, if_neg other]
  · exact fun first _ => plain first
  · exact fun _ _ first _ => plain first

/-- A backslash stands at the end, or takes the next character with it. -/
theorem ne_backslash (alone : c = '\\' → cs = [] → False)
    (escapes : ∀ d ds, c = '\\' → cs = d :: ds → False) : c ≠ '\\' := by
  intro backslash
  cases cs with
  | nil => exact alone backslash rfl
  | cons d ds => exact escapes d ds backslash rfl

theorem closingQuote_lt (closes : closingQuote? cs = some length) : length < cs.length := by
  fun_induction closingQuote? cs generalizing length with
  | case1 | case2 => contradiction
  | case3 _ cs ih =>
    obtain ⟨inner, found, rfl⟩ := Option.map_eq_some_iff.mp closes
    have := ih found
    simp only [List.length_cons]
    omega
  | case4 cs =>
    obtain rfl := Option.some.inj closes
    exact Nat.succ_pos _
  | case5 _ cs _ _ _ ih =>
    obtain ⟨inner, found, rfl⟩ := Option.map_eq_some_iff.mp closes
    have := ih found
    simp only [List.length_cons]
    omega

theorem closingQuote_cut (closes : closingQuote? (cs ++ extra) = some length)
    (fits : length < cs.length) : closingQuote? cs = some length := by
  fun_induction closingQuote? cs generalizing length with
  | case1 => simp at fits
  | case2 =>
    -- the backslash takes a character behind the cut with it
    obtain rfl : length = 0 := by simpa using fits
    cases extra <;> simp [closingQuote?] at closes
  | case3 c cs ih =>
    simp only [List.cons_append, closingQuote?] at closes
    obtain ⟨inner, found, rfl⟩ := Option.map_eq_some_iff.mp closes
    simp only [List.length_cons] at fits
    rw [ih found (by omega)]
    rfl
  | case4 => simpa [closingQuote?] using closes
  | case5 c cs alone escaped other ih =>
    have plain : c ≠ '\\' := ne_backslash alone escaped
    rw [List.cons_append, closingQuote_cons plain other] at closes
    obtain ⟨inner, found, rfl⟩ := Option.map_eq_some_iff.mp closes
    simp only [List.length_cons] at fits
    rw [ih found (by omega)]
    rfl

theorem readString_cut (reads : readString (cs ++ extra) = (lexeme, taken))
    (fits : taken ≤ cs.length) (fine : ∀ cause, lexeme ≠ .failure cause) :
    readString cs = (lexeme, taken) := by
  unfold readString at reads ⊢
  split at reads
  next length closes =>
    obtain ⟨same, rfl⟩ := Prod.mk.inj reads
    rw [closingQuote_cut closes fits, ← same]
    simp only [List.take_append_of_le_length (Nat.le_of_lt fits)]
  next => exact absurd (Prod.mk.inj reads).1.symm (fine _)

theorem readMark_cut (reads : readMark c (cs ++ extra) = (lexeme, taken))
    (fits : taken ≤ cs.length) (fine : ∀ cause, lexeme ≠ .failure cause) :
    readMark c cs = (lexeme, taken) := by
  unfold readMark at reads ⊢
  split at reads
  next spelling found? found =>
    obtain ⟨same, rfl⟩ := Prod.mk.inj reads
    obtain ⟨front, earlier, later, all, none⟩ := List.find?_eq_some_iff_append.mp found
    -- the mark still fits into what is left, and no earlier one starts the shorter text
    rw [List.find?_eq_some_iff_append.mpr ⟨?fits, earlier, later, all, ?first⟩, ← same]
    case fits =>
      refine List.isPrefixOf_iff_prefix.mpr (List.prefix_of_prefix_length_le
        (List.isPrefixOf_iff_prefix.mp front) (List.prefix_append (c :: cs) extra) ?_)
      rw [String.length_toList, List.length_cons]
      omega
    case first =>
      intro mark member
      have other := none mark member
      simp only [Bool.not_eq_true', ← Bool.not_eq_true, List.isPrefixOf_iff_prefix] at other ⊢
      exact fun short => other (short.trans (List.prefix_append (c :: cs) extra))
  next => exact absurd (Prod.mk.inj reads).1.symm (fine _)

/-- A text that is cut behind its first lexeme starts with the same lexeme. -/
theorem read_cut (reads : read c (cs ++ extra) = (lexeme, taken)) (fits : taken ≤ cs.length)
    (fine : ∀ cause, lexeme ≠ .failure cause) : read c cs = (lexeme, taken) := by
  unfold read at reads ⊢
  by_cases blank : isBlank c = true
  · rw [if_pos blank] at reads ⊢
    obtain ⟨rfl, rfl⟩ := Prod.mk.inj reads
    rw [takeWhile_cut fits]
  rw [if_neg blank] at reads ⊢
  by_cases comment : c = '/' ∧ (cs ++ extra).head? = some '/'
  · rw [if_pos comment] at reads
    obtain ⟨rfl, rfl⟩ := Prod.mk.inj reads
    cases cs with
    | nil =>
      obtain ⟨later, rfl⟩ := List.head?_eq_some_iff.mp comment.2
      simp at fits
    | cons next cs => rw [if_pos (by simpa using comment), takeWhile_cut fits]
  have comment' : ¬ (c = '/' ∧ cs.head? = some '/') := by
    rintro ⟨slash, next⟩
    obtain ⟨later, rfl⟩ := List.head?_eq_some_iff.mp next
    exact comment ⟨slash, rfl⟩
  rw [if_neg comment] at reads
  rw [if_neg comment']
  by_cases digit : c.isDigit = true
  · rw [if_pos digit] at reads ⊢
    rw [← readNumber_cut (by rw [reads]; exact fits), reads]
  rw [if_neg digit] at reads ⊢
  by_cases word : isWordStart c = true
  · rw [if_pos word] at reads ⊢
    rw [← readWord_cut (by rw [reads]; exact fits), reads]
  rw [if_neg word] at reads ⊢
  by_cases quote : c = '"'
  · rw [if_pos quote] at reads ⊢
    exact readString_cut reads fits fine
  · rw [if_neg quote] at reads ⊢
    exact readMark_cut reads fits fine

theorem readString_le (cs : List Char) : (readString cs).2 ≤ cs.length := by
  unfold readString
  split
  next length closes => exact closingQuote_lt closes
  next => exact Nat.le_refl _

theorem readMark_le (c : Char) (cs : List Char) : (readMark c cs).2 ≤ cs.length := by
  unfold readMark
  split
  next spelling kind found =>
    have front := List.find?_some found
    have fits := (List.isPrefixOf_iff_prefix.mp front).length_le
    rw [String.length_toList, List.length_cons] at fits
    dsimp only
    omega
  next => exact Nat.zero_le _

/-- A reading takes no more than there is. -/
theorem read_le (c : Char) (cs : List Char) : (read c cs).2 ≤ cs.length := by
  unfold read
  split
  · exact length_takeWhile_le _ cs
  split
  · exact length_takeWhile_le _ cs
  split
  · exact readNumber_le c cs
  split
  · exact length_takeWhile_le _ cs
  split
  · exact readString_le cs
  · exact readMark_le c cs

end PixelScript.Scan
