import PixelScript.Proofs.Token.Spelling

/-! The rules of tokens. Each rule is a set of texts, said without the scanner, and the scanner
reads the longest text in front that is of any rule. Where it fails, no rule has such a text:
either a quotation mark is not closed, or a character begins nothing. -/
namespace PixelScript.Scan

/-- The inside of a string literal: characters other than quotation marks and backslashes, and
backslashes with the character behind each. -/
inductive Quoted : List Char → Prop
  | nil : Quoted []
  | plain (mark : c ≠ '"') (escape : c ≠ '\\') (more : Quoted body) : Quoted (c :: body)
  | escaped (more : Quoted body) : Quoted ('\\' :: c :: body)

/-- The texts of the rules: what is skipped, and what is a token. Keywords are words. -/
inductive Matches : List Char → Prop
  | blanks (first : isBlank c = true) (more : ∀ d ∈ run, isBlank d = true) : Matches (c :: run)
  | comment (line : '\n' ∉ words) : Matches ('/' :: '/' :: words)
  | mark (listed : (spelling, kind) ∈ spellings) (same : spelling.toList = text) : Matches text
  | whole (first : c.isDigit = true) (more : ∀ d ∈ digits, d.isDigit = true) :
      Matches (c :: digits)
  | decimal (first : c.isDigit = true) (more : ∀ d ∈ digits, d.isDigit = true)
      (solid : fraction ≠ []) (rest : ∀ d ∈ fraction, d.isDigit = true) :
      Matches (c :: (digits ++ '.' :: fraction))
  | string (inside : Quoted body) : Matches ('"' :: (body ++ ['"']))
  | word (first : isWordStart c = true) (more : ∀ d ∈ rest, isWordRest d = true) :
      Matches (c :: rest)

/-- `Longest own text`: of all texts of rules in front of `text`, `own` is the longest. -/
structure Longest (own text : List Char) : Prop where
  front : own <+: text
  isText : Matches own
  longest : ∀ other, other <+: text → Matches other → other.length ≤ own.length

/-- The number of backslashes at the end of a text. -/
def backslashes (text : List Char) : Nat :=
  (text.reverse.takeWhile (· = '\\')).length

/-- A quotation mark that is not closed: an odd number of backslashes stands right in front of
every later one, the last of which takes it. -/
def Unclosed (text : List Char) : Prop :=
  ∃ cs, text = '"' :: cs ∧
    ∀ inside later, cs = inside ++ '"' :: later → Odd (backslashes inside)

/-- A character that no text of a rule begins with. -/
def Foreign (c : Char) : Prop :=
  ∀ text, ¬ Matches (c :: text)

section Strings

theorem backslashes_plain {c : Char} (plain : c ≠ '\\') (text : List Char) :
    backslashes (c :: text) = backslashes text := by
  rw [backslashes, backslashes, List.reverse_cons, List.takeWhile_append]
  split
  next whole => simp [plain, whole]
  next => rfl

theorem even_backslashes_escaped (c : Char) (text : List Char) :
    Even (backslashes ('\\' :: c :: text)) ↔ Even (backslashes text) := by
  rw [backslashes, backslashes, List.reverse_cons, List.reverse_cons, List.append_assoc,
    List.takeWhile_append]
  split
  next whole =>
    by_cases escape : c = '\\'
    · simp [escape, whole, Nat.even_add]
    · simp [escape, whole]
  next => rfl

/-- A closing quotation mark is found behind the inside of a literal. -/
theorem closingQuote_quoted (inside : Quoted body) (later : List Char) :
    closingQuote? (body ++ '"' :: later) = some body.length := by
  induction inside with
  | nil => rfl
  | plain mark escape _ ih =>
    rw [List.cons_append, closingQuote_cons escape mark, ih]
    rfl
  | escaped _ ih =>
    simp only [List.cons_append, closingQuote?, ih]
    rfl

theorem quoted_of_closingQuote (closes : closingQuote? cs = some length) :
    ∃ body later, cs = body ++ '"' :: later ∧ body.length = length ∧ Quoted body := by
  fun_induction closingQuote? cs generalizing length with
  | case1 | case2 => contradiction
  | case3 c cs ih =>
    obtain ⟨inner, found, rfl⟩ := Option.map_eq_some_iff.mp closes
    obtain ⟨body, later, rfl, rfl, inside⟩ := ih found
    exact ⟨'\\' :: c :: body, later, rfl, rfl, .escaped inside⟩
  | case4 cs =>
    obtain rfl := Option.some.inj closes
    exact ⟨[], cs, rfl, rfl, .nil⟩
  | case5 c cs alone escaped other ih =>
    have plain : c ≠ '\\' := ne_backslash alone escaped
    obtain ⟨inner, found, rfl⟩ := Option.map_eq_some_iff.mp closes
    obtain ⟨body, later, rfl, rfl, inside⟩ := ih found
    exact ⟨c :: body, later, rfl, rfl, .plain other plain inside⟩

/-- No backslash at the end of the inside of a literal is left for the mark that closes it. -/
theorem Quoted.even_backslashes (inside : Quoted body) : Even (backslashes body) := by
  induction inside with
  | nil => exact ⟨0, rfl⟩
  | plain _ escape _ ih => rwa [backslashes_plain escape]
  | escaped _ ih => rwa [even_backslashes_escaped]

/-- A quotation mark behind an even number of backslashes closes a literal, unless an earlier
one does. -/
theorem closingQuote_ne_none {inside : List Char} (even : Even (backslashes inside))
    (later : List Char) : closingQuote? (inside ++ '"' :: later) ≠ none := by
  fun_induction closingQuote? inside with
  | case1 => simp [closingQuote?]
  | case2 =>
    have : ¬ Even (backslashes ['\\']) := by decide
    contradiction
  | case3 c cs ih =>
    rw [even_backslashes_escaped] at even
    simpa [closingQuote?] using ih even
  | case4 cs => simp [closingQuote?]
  | case5 c cs alone escaped other ih =>
    have plain : c ≠ '\\' := ne_backslash alone escaped
    rw [backslashes_plain plain] at even
    rw [List.cons_append, closingQuote_cons plain other]
    simpa using ih even

theorem closingQuote_eq_none_iff : closingQuote? cs = none ↔ Unclosed ('"' :: cs) := by
  constructor
  · intro open?
    refine ⟨cs, rfl, fun inside later same => ?_⟩
    by_contra even
    rw [Nat.not_odd_iff_even] at even
    exact closingQuote_ne_none even later (same ▸ open?)
  · rintro ⟨_, same, odd⟩
    obtain ⟨-, rfl⟩ := List.cons.inj same
    cases closes : closingQuote? cs with
    | none => rfl
    | some length =>
      obtain ⟨body, later, rfl, -, inside⟩ := quoted_of_closingQuote closes
      exact absurd inside.even_backslashes (Nat.not_even_iff_odd.mpr (odd body later rfl))

end Strings

section Classes

variable {c : Char} {own cs : List Char}

theorem Matches.solid (isText : Matches own) : own ≠ [] := by
  cases isText with
  | mark listed same =>
    have all : ∀ entry ∈ spellings, entry.1.toList ≠ [] := by decide
    exact same ▸ all _ listed
  | blanks | comment | whole | decimal | string | word => simp

theorem isBlank_eq_false (other : c ≠ ' ' ∧ c ≠ '\t' ∧ c ≠ '\r') : isBlank c = false := by
  simp [isBlank, other]

theorem read_digit (digit : c.isDigit = true) (cs : List Char) : read c cs = readNumber c cs := by
  have other : ∀ d : Char, d.isDigit = false → c ≠ d := by
    rintro d plain rfl
    rw [plain] at digit
    contradiction
  have blank := isBlank_eq_false ⟨other ' ' rfl, other '\t' rfl, other '\r' rfl⟩
  rw [read, if_neg (by simp [blank]), if_neg (fun comment => other '/' rfl comment.1),
    if_pos digit]

theorem isDigit_of_isWordStart (first : isWordStart c = true) : c.isDigit = false := by
  by_contra digit
  rw [Bool.not_eq_false] at digit
  simp only [Char.isDigit, Bool.and_eq_true, decide_eq_true_eq] at digit
  simp only [isWordStart, Char.isAlpha, Char.isUpper, Char.isLower, Bool.or_eq_true,
    Bool.and_eq_true, decide_eq_true_eq, beq_iff_eq] at first
  rcases first with (⟨low, -⟩ | ⟨low, -⟩) | rfl
  · exact absurd (UInt32.le_trans low digit.2) (by decide)
  · exact absurd (UInt32.le_trans low digit.2) (by decide)
  · exact absurd digit.2 (by decide)

theorem read_wordStart (first : isWordStart c = true) (cs : List Char) :
    read c cs = readWord c cs := by
  have other : ∀ d : Char, isWordStart d = false → c ≠ d := by
    rintro d plain rfl
    rw [plain] at first
    contradiction
  have blank := isBlank_eq_false ⟨other ' ' rfl, other '\t' rfl, other '\r' rfl⟩
  rw [read, if_neg (by simp [blank]), if_neg (fun comment => other '/' rfl comment.1),
    if_neg (by simp [isDigit_of_isWordStart first]), if_pos first]

theorem mark_class (listed : (spelling, kind) ∈ spellings) (same : spelling.toList = c :: own) :
    isBlank c = false ∧ c.isDigit = false ∧ isWordStart c = false ∧ c ≠ '"' := by
  have all : ∀ entry ∈ spellings, entry.1.toList.head?.all
      (fun c => !isBlank c && !c.isDigit && !isWordStart c && c != '"') = true := by decide
  have here := all _ listed
  dsimp only at here
  rw [same] at here
  simpa [and_assoc] using here

theorem length_le_takeWhile {p : Char → Bool} (all : ∀ d ∈ own, p d = true) (front : own <+: cs) :
    own.length ≤ (cs.takeWhile p).length := by
  obtain ⟨rest, rfl⟩ := front
  rw [List.takeWhile_append_of_pos all, List.length_append]
  exact Nat.le_add_right ..

/-- A mark in front of a text is read as that mark or a longer one. -/
theorem readMark_of_listed (listed : (spelling, kind) ∈ spellings)
    (same : spelling.toList = c :: own) (front : own <+: cs) :
    own.length ≤ (readMark c cs).2 ∧ ∀ cause, (readMark c cs).1 ≠ .failure cause := by
  have ordered : spellings.Pairwise fun first second => ¬ first.1.toList <+: second.1.toList := by
    decide
  have starts : spelling.toList <+: c :: cs := same ▸ List.cons_prefix_cons.mpr ⟨rfl, front⟩
  unfold readMark
  split
  next spelling' kind' found =>
    refine ⟨?_, by simp⟩
    obtain ⟨here, earlier, later, all, none⟩ := List.find?_eq_some_iff_append.mp found
    rw [List.isPrefixOf_iff_prefix] at here
    -- the mark that was found is no beginning of one that comes later in the list
    have bound : spelling.toList.length ≤ spelling'.toList.length := by
      by_contra longer
      have begins := List.prefix_of_prefix_length_le here starts (by omega)
      rw [all] at listed ordered
      rcases List.mem_append.mp listed with before | after
      · have other : (!spelling.toList.isPrefixOf (c :: cs)) = true := none _ before
        rw [List.isPrefixOf_iff_prefix.mpr starts] at other
        contradiction
      · rcases List.mem_cons.mp after with same | after
        · obtain ⟨rfl, -⟩ := Prod.mk.inj same
          exact longer (Nat.le_refl _)
        · exact (List.pairwise_cons.mp (List.pairwise_append.mp ordered).2.1).1 _ after begins
    rw [same, List.length_cons, String.length_toList] at bound
    dsimp only
    omega
  next missing =>
    have other := List.find?_eq_none.mp missing _ listed
    rw [List.isPrefixOf_iff_prefix] at other
    exact absurd starts other

theorem readNumber_of_decimal {digits fraction : List Char}
    (all : ∀ d ∈ digits, d.isDigit = true) (point : fraction ≠ [])
    (rest : ∀ d ∈ fraction, d.isDigit = true) (front : digits ++ '.' :: fraction <+: cs) :
    (digits ++ '.' :: fraction).length ≤ (readNumber c cs).2 := by
  obtain ⟨later, rfl⟩ := front
  have whole : (digits ++ '.' :: fraction ++ later).takeWhile Char.isDigit = digits := by
    rw [List.append_assoc, List.takeWhile_append_of_pos all, List.cons_append,
      List.takeWhile_cons_of_neg (by decide), List.append_nil]
  have behind : (digits ++ '.' :: fraction ++ later).drop digits.length =
      '.' :: (fraction ++ later) := by
    rw [List.append_assoc, List.drop_left, List.cons_append]
  simp only [readNumber, whole, behind, fractionDigits]
  have long := length_le_takeWhile rest (List.prefix_append fraction later)
  have positive := List.length_pos_iff.mpr point
  have solid : ((fraction ++ later).takeWhile Char.isDigit).isEmpty = false := by
    rw [List.isEmpty_eq_false_iff, ← List.length_pos_iff]
    omega
  rw [solid, List.length_append, List.length_cons]
  simp only [Bool.false_eq_true, if_false]
  omega

/-- The scanner takes at least as much as any rule would. -/
theorem read_of_matches (isText : Matches (c :: own)) (front : own <+: cs) :
    own.length ≤ (read c cs).2 ∧ ∀ cause, (read c cs).1 ≠ .failure cause := by
  cases isText with
  | blanks first more =>
    rw [read, if_pos first]
    exact ⟨length_le_takeWhile more front, by simp⟩
  | comment line =>
    have next : cs.head? = some '/' := by
      obtain ⟨rest, rfl⟩ := front
      rfl
    rw [read, if_neg (by decide), if_pos ⟨rfl, next⟩]
    refine ⟨length_le_takeWhile (fun d member => decide_eq_true ?_) front, by simp⟩
    rintro rfl
    simp [line] at member
  | mark listed same =>
    obtain ⟨blank, digit, word, quote⟩ := mark_class listed same
    rw [read, if_neg (by simp [blank])]
    by_cases comment : c = '/' ∧ cs.head? = some '/'
    · -- a slash of a comment is no longer mark
      have alone : ∀ entry ∈ spellings, entry.1.toList.head? = some '/' →
          entry.1.toList.length = 1 := by decide
      have short := alone _ listed (by rw [same, comment.1]; rfl)
      rw [same, List.length_cons] at short
      rw [if_pos comment]
      exact ⟨by omega, by simp⟩
    · rw [if_neg comment, if_neg (by simp [digit]), if_neg (by simp [word]), if_neg quote]
      exact readMark_of_listed listed same front
  | whole first more =>
    rw [read_digit first]
    have long := length_le_takeWhile more front
    refine ⟨?_, by simp [readNumber]⟩
    simp only [readNumber]
    omega
  | decimal first more solid rest =>
    rw [read_digit first]
    exact ⟨readNumber_of_decimal more solid rest front, by simp [readNumber]⟩
  | string inside =>
    obtain ⟨later, rfl⟩ := front
    have closes := closingQuote_quoted inside later
    rw [read_quote, readString, List.append_assoc, List.singleton_append, closes]
    simp
  | word first more =>
    rw [read_wordStart first]
    exact ⟨length_le_takeWhile more front, by simp [readWord]⟩

/-- A character that begins anything but a string literal is the text of a rule by itself. -/
theorem Matches.single (isText : Matches (c :: own)) (other : c ≠ '"') : Matches [c] := by
  cases isText with
  | blanks first => exact .blanks first (by simp)
  | comment =>
    have listed : ("/", TokenKind.identifier "dividedBy") ∈ spellings := by simp [spellings]
    exact .mark listed rfl
  | mark listed same =>
    have alone : ∀ entry ∈ spellings, ∃ entry' ∈ spellings,
        entry'.1.toList = entry.1.toList.take 1 := by decide
    obtain ⟨⟨spelling', kind'⟩, listed', single⟩ := alone _ listed
    exact .mark listed' (by rw [single, same, List.take_succ_cons, List.take_zero])
  | whole first | decimal first => exact .whole first (by simp)
  | string => contradiction
  | word first => exact .word first (by simp)

theorem all_of_length_takeWhile {p : Char → Bool} (length : (cs.takeWhile p).length = cs.length) :
    ∀ d ∈ cs, p d = true :=
  List.takeWhile_eq_self_iff.mp (List.IsPrefix.eq_of_length (List.takeWhile_prefix p) length)

theorem matches_of_readNumber (digit : c.isDigit = true)
    (length : (readNumber c cs).2 = cs.length) : Matches (c :: cs) := by
  have split : cs.takeWhile Char.isDigit ++ cs.drop (cs.takeWhile Char.isDigit).length = cs :=
    List.prefix_iff_eq_append.mp (List.takeWhile_prefix _)
  have run : ∀ d ∈ cs.takeWhile Char.isDigit, d.isDigit = true :=
    fun d member => List.mem_takeWhile_imp member
  simp only [readNumber] at length
  generalize cs.takeWhile Char.isDigit = whole at split run length
  generalize cs.drop whole.length = later at split length
  subst split
  revert length
  fun_cases fractionDigits later with
  | case1 digits =>
    intro length
    by_cases none : (digits.takeWhile Char.isDigit).isEmpty = true
    · rw [if_pos none] at length
      simp at length
    · rw [if_neg none, List.length_append, List.length_cons] at length
      have all : ∀ d ∈ digits, d.isDigit = true := all_of_length_takeWhile (by omega)
      have solid : digits ≠ [] := by
        rintro rfl
        simp at none
      exact .decimal digit run solid all
  | case2 =>
    intro length
    rw [List.isEmpty_nil, if_pos rfl, List.length_append] at length
    obtain rfl : later = [] := List.eq_nil_of_length_eq_zero (by omega)
    rw [List.append_nil]
    exact .whole digit run

theorem matches_of_readString (reads : readString cs = (.token kind, cs.length)) :
    Matches ('"' :: cs) := by
  unfold readString at reads
  split at reads
  next length closes =>
    obtain ⟨body, later, rfl, rfl, inside⟩ := quoted_of_closingQuote closes
    have all := (Prod.mk.inj reads).2
    rw [List.length_append, List.length_cons] at all
    obtain rfl : later = [] := List.eq_nil_of_length_eq_zero (by omega)
    exact .string inside
  next => simp at reads

theorem matches_of_readMark (reads : readMark c cs = (.token kind, cs.length)) :
    Matches (c :: cs) := by
  unfold readMark at reads
  split at reads
  next spelling kind found =>
    have listed := List.mem_of_find?_eq_some found
    have begins := List.find?_some found
    have front := List.isPrefixOf_iff_prefix.mp begins
    have solid := List.length_pos_iff.mpr (Matches.mark listed rfl).solid
    have length := (Prod.mk.inj reads).2
    rw [String.length_toList] at solid
    have same : spelling.toList = c :: cs :=
      front.eq_of_length (by rw [String.length_toList, List.length_cons]; omega)
    exact .mark listed same
  next => simp at reads

/-- What is read alone is a text of a rule. -/
theorem matches_of_read (reads : read c cs = (lexeme, cs.length))
    (fine : ∀ cause, lexeme ≠ .failure cause) : Matches (c :: cs) := by
  cases lexeme with
  | failure cause => exact absurd rfl (fine cause)
  | blank =>
    have alone : read c (cs ++ []) = (.blank, cs.length) := by rw [List.append_nil, reads]
    rcases read_blank alone with blanks | ⟨words, same, line, -⟩
    · obtain ⟨first, more⟩ := List.forall_mem_cons.mp blanks
      exact .blanks first more
    · exact same ▸ .comment line
  | token kind =>
    unfold read at reads
    split at reads
    · simp at reads
    split at reads
    · simp at reads
    split at reads
    next digit => exact matches_of_readNumber digit (by rw [reads])
    split at reads
    next first =>
      simp only [readWord, Prod.mk.injEq] at reads
      exact .word first (all_of_length_takeWhile reads.2)
    split at reads
    next quote => exact quote ▸ matches_of_readString reads
    next => exact matches_of_readMark reads

/-- The scanner reads the longest text of a rule. -/
theorem read_longest {front back : List Char}
    (reads : read c (front ++ back) = (lexeme, front.length))
    (fine : ∀ cause, lexeme ≠ .failure cause) : Longest (c :: front) (c :: (front ++ back)) where
  front := List.prefix_append (c :: front) back
  isText := matches_of_read (read_cut reads (Nat.le_refl _) fine) fine
  longest := by
    intro other starts isText
    obtain ⟨d, own, rfl⟩ := List.exists_cons_of_ne_nil isText.solid
    obtain ⟨rfl, begins⟩ := List.cons_prefix_cons.mp starts
    have bound := (read_of_matches isText begins).1
    rw [reads] at bound
    exact Nat.succ_le_succ bound

/-- A text of a rule that is longest is what the scanner reads. -/
theorem Longest.read {rest : List Char} (longest : Longest own (own ++ rest)) :
    ∃ c front lexeme, own = c :: front ∧ read c (front ++ rest) = (lexeme, front.length) ∧
      ∀ cause, lexeme ≠ .failure cause := by
  obtain ⟨c, front, rfl⟩ := List.exists_cons_of_ne_nil longest.isText.solid
  obtain ⟨bound, fine⟩ := read_of_matches longest.isText (List.prefix_append front rest)
  cases reads : Scan.read c (front ++ rest) with
  | mk lexeme taken =>
    rw [reads] at bound fine
    refine ⟨c, front, lexeme, rfl, ?_, fine⟩
    obtain ⟨front', back', same, rfl⟩ := read_front reads
    have whole : Longest (c :: front') (c :: (front' ++ back')) :=
      read_longest (same ▸ reads) fine
    have bound' := longest.longest (c :: front')
      (by rw [List.cons_append, same]; exact whole.front) whole.isText
    rw [List.length_cons, List.length_cons] at bound'
    rw [reads, Nat.le_antisymm bound (Nat.le_of_succ_le_succ bound')]

/-- Why a reading fails. -/
theorem read_failure (reads : read c cs = (.failure cause, taken)) :
    (cause = .unterminatedString ∧ taken = cs.length ∧ Unclosed (c :: cs)) ∨
      (cause = .unrecognizedCharacter c ∧ taken = 0 ∧ Foreign c) := by
  by_cases quote : c = '"'
  · left
    subst quote
    rw [read_quote, readString] at reads
    split at reads
    next => simp at reads
    next open? =>
      obtain ⟨same, rfl⟩ := Prod.mk.inj reads
      exact ⟨(Lexeme.failure.inj same).symm, rfl, closingQuote_eq_none_iff.mp open?⟩
  · right
    have foreign : Foreign c := by
      intro text isText
      have fine := (read_of_matches (isText.single quote) (List.nil_prefix (l := cs))).2
      rw [reads] at fine
      exact fine cause rfl
    unfold read at reads
    split at reads
    · simp at reads
    split at reads
    · simp at reads
    split at reads
    · simp [readNumber] at reads
    split at reads
    · simp [readWord] at reads
    unfold readMark at reads
    split at reads
    · simp at reads
    · obtain ⟨same, rfl⟩ := Prod.mk.inj reads
      exact ⟨(Lexeme.failure.inj same).symm, rfl, foreign⟩

theorem read_unclosed (unclosed : Unclosed ('"' :: cs)) :
    read '"' cs = (.failure .unterminatedString, cs.length) := by
  rw [read_quote, readString, closingQuote_eq_none_iff.mpr unclosed]

theorem read_foreign (foreign : Foreign c) (cs : List Char) :
    read c cs = (.failure (.unrecognizedCharacter c), 0) := by
  cases reads : read c cs with
  | mk lexeme taken =>
    obtain ⟨front, back, rfl, rfl⟩ := read_front reads
    cases lexeme with
    | failure cause =>
      rcases read_failure reads with ⟨-, -, _, same, -⟩ | ⟨rfl, none, -⟩
      · obtain ⟨rfl, -⟩ := List.cons.inj same
        exact absurd (.string .nil) (foreign ['"'])
      · rw [none]
    | blank | token => exact absurd (read_longest reads (by simp)).isText (foreign front)

end Classes

end PixelScript.Scan
