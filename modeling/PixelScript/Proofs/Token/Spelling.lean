import PixelScript.Proofs.Token.Layout

/-! How tokens are written. A text is the row of its lexemes, each with characters of its own,
and what a token is depends on its own characters alone: they are read as this token wherever
a blank follows. Tokens can therefore be written one by one, and an operator by its name as
well as by its mark. -/
namespace PixelScript

namespace Scan

/-- The lexemes of a text, each with the characters that it is read from. -/
def lexemes : List Char → List (Lexeme × List Char)
  | [] => []
  | c :: cs =>
    let (lexeme, taken) := read c cs
    (lexeme, c :: cs.take taken) :: lexemes (cs.drop taken)
termination_by text => text.length
decreasing_by simp only [List.length_drop, List.length_cons]; omega

def Lexeme.kind? : Lexeme → Option TokenKind
  | token kind => some kind
  | blank | failure _ => none

/-- The tokens of a text, each with its own characters. -/
def pieces (text : List Char) : List (TokenKind × List Char) :=
  (lexemes text).filterMap fun entry => entry.1.kind?.map (·, entry.2)

/-- No lexeme of the text is a failure. -/
def Clean (text : List Char) : Prop :=
  ∀ entry ∈ lexemes text, ∀ cause, entry.1 ≠ .failure cause

/-- `Reads text kind`: the text is a single token. -/
def Reads (text : List Char) (kind : TokenKind) : Prop :=
  ∃ c front, text = c :: front ∧ read c front = (.token kind, front.length)

@[simp] theorem lexemes_nil : lexemes [] = [] := by
  rw [lexemes]

theorem lexemes_cons {front back : List Char}
    (reads : read c (front ++ back) = (lexeme, front.length)) :
    lexemes (c :: (front ++ back)) = (lexeme, c :: front) :: lexemes back := by
  rw [lexemes, reads]
  simp

@[simp] theorem pieces_nil : pieces [] = [] := by
  simp [pieces]

theorem pieces_skip {front back : List Char}
    (reads : read c (front ++ back) = (.blank, front.length)) :
    pieces (c :: (front ++ back)) = pieces back := by
  rw [pieces, lexemes_cons reads]
  rfl

theorem pieces_emit {front back : List Char}
    (reads : read c (front ++ back) = (.token kind, front.length)) :
    pieces (c :: (front ++ back)) = (kind, c :: front) :: pieces back := by
  rw [pieces, lexemes_cons reads]
  rfl

theorem clean_nil : Clean [] := by
  simp [Clean]

theorem clean_cons {front back : List Char}
    (reads : read c (front ++ back) = (lexeme, front.length)) :
    Clean (c :: (front ++ back)) ↔ (∀ cause, lexeme ≠ .failure cause) ∧ Clean back := by
  rw [Clean, lexemes_cons reads, List.forall_mem_cons]
  rfl

end Scan

open Scan

namespace Scans

/-- The tokens of a text are its pieces and the end of input. -/
theorem kinds (scans : Scans offset text tokens) :
    tokens.map (·.kind) = (pieces text).map (·.1) ++ [.endOfInput] := by
  induction scans with
  | nil => simp
  | skip reads _ ih => rw [pieces_skip reads, ih]
  | emit reads _ ih => rw [pieces_emit reads, List.map_cons, ih, List.map_cons, List.cons_append]

theorem clean (scans : Scans offset text tokens) : Clean text := by
  induction scans with
  | nil => exact clean_nil
  | skip reads _ ih | emit reads _ ih => exact (clean_cons reads).mpr ⟨by simp, ih⟩

/-- A text without a failure has tokens, wherever it stands. -/
theorem exists_of_clean (clean : Clean text) (offset : Nat) :
    ∃ tokens, Scans offset text tokens := by
  fun_induction lexemes text generalizing offset with
  | case1 => exact ⟨_, .nil⟩
  | case2 c cs lexeme taken reads ih =>
    obtain ⟨front, back, rfl, rfl⟩ := read_front reads
    obtain ⟨fine, later⟩ := (clean_cons reads).mp clean
    rw [List.drop_left] at ih
    obtain ⟨tokens, scans⟩ := ih later (offset + Text.byteLength (c :: front))
    cases lexeme with
    | blank => exact ⟨_, .skip reads scans⟩
    | token kind => exact ⟨_, .emit reads scans⟩
    | failure cause => exact absurd rfl (fine cause)

/-- In a text whose offsets can all be counted, a token's span is that of its own characters. -/
theorem slices (lead : List Char) (scans : Scans (Text.byteLength lead) text tokens)
    (bound : Text.byteLength (lead ++ text) ≤ Span.maxOffset) :
    List.Forall₂ (fun token piece => token.span.slice? (lead ++ text) = some piece.2)
      tokens.dropLast (pieces text) := by
  generalize start : Text.byteLength lead = offset at scans
  induction scans generalizing lead with
  | nil => simp
  | @skip c front back _ _ reads _ ih =>
    rw [pieces_skip reads]
    have same : lead ++ c :: (front ++ back) = (lead ++ c :: front) ++ back := by simp
    rw [same] at bound ⊢
    exact ih _ bound (by rw [Text.byteLength_append, start])
  | @emit c front back _ _ kind reads later ih =>
    obtain ⟨more, rfl⟩ := later.exists_end
    have same : lead ++ c :: (front ++ back) = (lead ++ c :: front) ++ back := by simp
    rw [pieces_emit reads, List.dropLast_cons_of_ne_nil (by simp)]
    refine .cons ?_ ?_
    · have short := bound
      rw [same, Text.byteLength_append, Text.byteLength_append, start] at short
      rw [Span.slice?, Span.ofRange, Nat.min_eq_left (by omega), Nat.min_eq_left (by omega),
        ← start]
      exact Text.slice_append lead (c :: front) back
    · rw [same] at bound ⊢
      exact ih _ bound (by rw [Text.byteLength_append, start])

end Scans

namespace Scan

/-- A token's own characters are this token, also where something else stood behind them. -/
theorem Reads.of_front (reads : read c (front ++ back) = (.token kind, front.length)) :
    Reads (c :: front) kind :=
  ⟨c, front, rfl, read_cut reads (Nat.le_refl _) (by simp)⟩

theorem reads_of_mem_pieces (member : (kind, own) ∈ pieces text) : Reads own kind := by
  fun_induction lexemes text with
  | case1 => simp at member
  | case2 c cs lexeme taken reads ih =>
    obtain ⟨front, back, rfl, rfl⟩ := read_front reads
    rw [List.drop_left] at ih
    cases lexeme with
    | blank =>
      rw [pieces_skip reads] at member
      exact ih member
    | failure cause =>
      rw [pieces, lexemes_cons reads] at member
      exact ih member
    | token kind' =>
      rw [pieces_emit reads] at member
      obtain same | later := List.mem_cons.mp member
      · obtain ⟨rfl, rfl⟩ := Prod.mk.inj same
        exact .of_front reads
      · exact ih later

/-- Every mark is read as itself. -/
theorem reads_mark (listed : entry ∈ spellings) : Reads entry.1.toList entry.2 := by
  simp only [spellings, List.mem_cons, List.not_mem_nil, or_false] at listed
  rcases listed with rfl | rfl | rfl | rfl | rfl | rfl | rfl | rfl | rfl | rfl | rfl | rfl | rfl |
    rfl | rfl | rfl | rfl | rfl | rfl | rfl <;> exact ⟨_, _, rfl, rfl⟩

/-- Every name of an operator is a word, and none is a keyword. -/
theorem reads_operatorName (known : isOperatorName name = true) :
    Reads name.toList (.identifier name) := by
  simp only [isOperatorName, operatorNames, List.contains_eq_mem, decide_eq_true_eq, List.mem_cons,
    List.not_mem_nil, or_false] at known
  rcases known with rfl | rfl | rfl | rfl | rfl | rfl | rfl | rfl | rfl | rfl | rfl | rfl | rfl <;>
    exact ⟨_, _, rfl, rfl⟩

theorem read_run (blank : isBlank c = true) (run : ∀ d ∈ front, isBlank d = true)
    (ends : back.takeWhile isBlank = []) : read c (front ++ back) = (.blank, front.length) := by
  rw [read, if_pos blank, List.takeWhile_append_of_pos run, ends, List.append_nil]

/-- A blank in front of a text is skipped with the blanks that the text starts with. -/
theorem lexemes_blank (blank : isBlank c = true) (text : List Char) :
    ∃ run skipped later, lexemes (c :: text) = (.blank, run) :: later ∧
      lexemes text = skipped ++ later ∧ (skipped = [] ∨ ∃ run', skipped = [(.blank, run')]) := by
  have split : text.takeWhile isBlank ++ text.dropWhile isBlank = text :=
    List.takeWhile_append_dropWhile
  have run : ∀ d ∈ text.takeWhile isBlank, isBlank d = true := fun _ => List.mem_takeWhile_imp
  have ends : (text.dropWhile isBlank).takeWhile isBlank = [] := by
    have other := List.head?_dropWhile_not isBlank text
    cases dropped : text.dropWhile isBlank with
    | nil => rfl
    | cons d later =>
      rw [dropped] at other
      exact List.takeWhile_cons_of_neg (by simpa using other)
  generalize text.takeWhile isBlank = front at split run
  generalize text.dropWhile isBlank = back at split ends
  subst split
  have whole := lexemes_cons (read_run blank run ends)
  cases front with
  | nil => exact ⟨_, [], _, whole, rfl, .inl rfl⟩
  | cons d front =>
    obtain ⟨first, more⟩ := List.forall_mem_cons.mp run
    exact ⟨_, [_], _, whole, lexemes_cons (read_run first more ends), .inr ⟨_, rfl⟩⟩

/-- A blank in front of a text adds no token to it. -/
theorem blank_cons (blank : isBlank c = true) (text : List Char) :
    pieces (c :: text) = pieces text ∧ (Clean (c :: text) ↔ Clean text) := by
  obtain ⟨run, skipped, later, whole, split, same⟩ := lexemes_blank blank text
  simp only [pieces, Clean, whole, split]
  obtain rfl | ⟨run', rfl⟩ := same <;> simp [Lexeme.kind?]

/-- A token in front of a blank or of nothing. -/
theorem Reads.behind (reads : Reads text kind) (all : List Char)
    (delimited : ∀ c, all.head? = some c → isBlank c = true) :
    pieces (text ++ all) = (kind, text) :: pieces all ∧ (Clean (text ++ all) ↔ Clean all) := by
  obtain ⟨c, front, rfl, reads⟩ := reads
  have reads' : read c (front ++ all) = (.token kind, front.length) := by
    cases all with
    | nil => rwa [List.append_nil]
    | cons stop all =>
      exact read_delimiter (by simp [isDelimiter, delimited stop rfl]) reads (by simp)
        (.inr (by simp)) all
  rw [List.cons_append, pieces_emit reads', clean_cons reads']
  exact ⟨rfl, by simp⟩

theorem Reads.alone (reads : Reads text kind) : pieces text = [(kind, text)] ∧ Clean text := by
  obtain ⟨same, clean⟩ := reads.behind [] (by simp)
  rw [List.append_nil] at same clean
  exact ⟨by rw [same, pieces_nil], clean.mpr clean_nil⟩

end Scan

/-- `Respells piece text`: ways to write a token. It may keep its own characters, and where it
names an operator, it may have any spelling of the operator. -/
inductive Respells : TokenKind × List Char → List Char → Prop
  | own : Respells (kind, own) own
  | word (known : isOperatorName name = true) : Respells (.identifier name, own) name.toList
  | mark (known : isOperatorName name = true) (listed : (spelling, .identifier name) ∈ spellings) :
      Respells (.identifier name, own) spelling.toList

/-- `Spaced texts all`: the texts one after another in `all`, with blanks around them and at
least one between neighbours. -/
inductive Spaced : List (List Char) → List Char → Prop
  | nil : Spaced [] []
  | blank (isBlank : c = ' ' ∨ c = '\t' ∨ c = '\r') (later : Spaced texts all) :
      Spaced texts (c :: all)
  | last : Spaced [text] text
  | text (isBlank : c = ' ' ∨ c = '\t' ∨ c = '\r') (later : Spaced texts all) :
      Spaced (text :: texts) (text ++ c :: all)

theorem Respells.reads (respells : Respells piece text) (own : Reads piece.2 piece.1) :
    Reads text piece.1 := by
  cases respells with
  | own => exact own
  | word known => exact reads_operatorName known
  | mark _ listed => exact reads_mark listed

theorem Respells.reads_all (respelled : List.Forall₂ Respells list texts)
    (own : ∀ piece ∈ list, Reads piece.2 piece.1) :
    List.Forall₂ Reads texts (list.map (·.1)) := by
  induction respelled with
  | nil => exact .nil
  | cons first _ ih =>
    obtain ⟨here, later⟩ := List.forall_mem_cons.mp own
    exact .cons (first.reads here) (ih later)

theorem Scan.isBlank_iff : isBlank c = true ↔ c = ' ' ∨ c = '\t' ∨ c = '\r' := by
  simp [isBlank, or_assoc]

/-- Tokens with blanks between them are read one by one. -/
theorem Spaced.pieces_eq (spaced : Spaced texts all) (reads : List.Forall₂ Reads texts kinds) :
    Clean all ∧ (pieces all).map (·.1) = kinds := by
  induction spaced generalizing kinds with
  | nil =>
    cases reads
    exact ⟨clean_nil, by simp⟩
  | blank isBlank _ ih =>
    obtain ⟨same, clean⟩ := blank_cons (isBlank_iff.mpr isBlank) _
    rw [same, clean]
    exact ih reads
  | last =>
    obtain _ | ⟨first, none⟩ := reads
    cases none
    obtain ⟨same, clean⟩ := first.alone
    exact ⟨clean, by rw [same]; rfl⟩
  | @text c texts all text isBlank _ ih =>
    obtain _ | ⟨first, more⟩ := reads
    have blank := isBlank_iff.mpr isBlank
    obtain ⟨same, clean⟩ := first.behind (c :: all) (by simp [blank])
    obtain ⟨same', clean'⟩ := blank_cons blank all
    rw [same, clean, same', clean', List.map_cons, (ih more).2]
    exact ⟨(ih more).1, rfl⟩

namespace Scan

/-- The token that a text starts with, if no blank or comment stands before it. -/
def firstKind? (text : List Char) : Option TokenKind :=
  (lexemes text).head?.bind (·.1.kind?)

/-- The token that a text ends with, if no blank or comment stands behind it. -/
def lastKind? (text : List Char) : Option TokenKind :=
  (lexemes text).getLast?.bind (·.1.kind?)

/-- What is skipped in front of something else ends there, whatever follows. -/
theorem read_blank_append {front back : List Char}
    (reads : read c (front ++ back) = (.blank, front.length)) (solid : back ≠ [])
    (extra : List Char) : read c (front ++ (back ++ extra)) = (.blank, front.length) := by
  obtain ⟨d, back, rfl⟩ := List.exists_cons_of_ne_nil solid
  by_cases blank : isBlank c = true
  · rw [read, if_pos blank] at reads ⊢
    obtain ⟨inside, stops⟩ := takeWhile_front (Prod.mk.inj reads).2
    rw [List.takeWhile_append_of_pos inside, List.cons_append,
      List.takeWhile_cons_of_neg (by simp [stops d rfl]), List.append_nil]
  · obtain blanks | ⟨words, same, line, ends⟩ := read_blank reads
    · exact absurd (blanks c List.mem_cons_self) blank
    · -- a comment with something behind it has the line break there
      obtain ⟨rfl, rfl⟩ := List.cons.inj same
      obtain rfl : d = '\n' := by simpa using ends
      have run : ∀ d ∈ '/' :: words, decide (d ≠ '\n') = true := by
        intro d member
        refine decide_eq_true ?_
        rintro rfl
        simp [line] at member
      rw [read, if_neg (by decide), if_pos ⟨rfl, rfl⟩, List.takeWhile_append_of_pos run]
      simp

theorem lexemes_ne_nil (solid : text ≠ []) : lexemes text ≠ [] := by
  obtain ⟨c, cs, rfl⟩ := List.exists_cons_of_ne_nil solid
  rw [lexemes]
  simp

/-- Behind its last token a text can go on with a blank or a line break. -/
theorem lexemes_append (clean : Clean text) (ends : lastKind? text = some kind)
    (delimiter : isDelimiter stop = true) (more : List Char) :
    lexemes (text ++ stop :: more) = lexemes text ++ lexemes (stop :: more) := by
  fun_induction lexemes text with
  | case1 => simp [lastKind?] at ends
  | case2 c cs lexeme taken reads ih =>
    obtain ⟨front, back, rfl, rfl⟩ := read_front reads
    obtain ⟨fine, later⟩ := (clean_cons reads).mp clean
    rw [lastKind?, lexemes_cons reads] at ends
    rw [List.drop_left] at ih ⊢
    rw [List.take_left, List.cons_append, List.append_assoc]
    by_cases last : back = []
    · -- the last lexeme is a token, which ends before the delimiter
      subst last
      rw [List.append_nil] at reads
      cases lexeme with
      | token kind =>
        rw [List.nil_append,
          lexemes_cons (read_delimiter delimiter reads fine (.inr (by simp)) more)]
        simp
      | blank | failure => simp [Lexeme.kind?] at ends
    · have reads' : read c (front ++ (back ++ stop :: more)) = (lexeme, front.length) := by
        cases lexeme with
        | blank => exact read_blank_append reads last _
        | token kind =>
          rw [← List.append_assoc]
          exact read_delimiter delimiter reads fine (.inr (by simp)) more
        | failure cause => exact absurd rfl (fine cause)
      rw [List.getLast?_cons_of_ne_nil (lexemes_ne_nil last)] at ends
      rw [lexemes_cons reads', ih later ends, List.cons_append]

theorem lastKind?_blank (blank : isBlank c = true) (ends : lastKind? text = some kind) :
    lastKind? (c :: text) = some kind := by
  obtain ⟨run, skipped, later, whole, split, same⟩ := lexemes_blank blank text
  rw [lastKind?, split] at ends
  rw [lastKind?, whole]
  by_cases last : later = []
  · subst last
    obtain rfl | ⟨run', rfl⟩ := same <;> simp [Lexeme.kind?] at ends
  · rw [List.getLast?_append_of_ne_nil _ last] at ends
    rwa [List.getLast?_cons_of_ne_nil last]

theorem head?_pieces (starts : firstKind? text = some kind) :
    ((pieces text).map (·.1)).head? = some kind := by
  obtain ⟨entry, first, same⟩ := Option.bind_eq_some_iff.mp starts
  obtain ⟨later, split⟩ := List.head?_eq_some_iff.mp first
  simp [pieces, split, same]

theorem getLast?_pieces (ends : lastKind? text = some kind) :
    ((pieces text).map (·.1)).getLast? = some kind := by
  obtain ⟨entry, last, same⟩ := Option.bind_eq_some_iff.mp ends
  obtain ⟨front, split⟩ := List.getLast?_eq_some_iff.mp last
  simp [pieces, split, same]

/-- `Row text kinds`: the text is a row of tokens of these kinds, and ends with the last. -/
structure Row (text : List Char) (kinds : List TokenKind) : Prop where
  clean : Clean text
  kinds_eq : (pieces text).map (·.1) = kinds
  ends : ∃ kind, lastKind? text = some kind

theorem Row.single (reads : Reads text kind) : Row text [kind] := by
  obtain ⟨same, clean⟩ := reads.alone
  refine ⟨clean, by rw [same]; rfl, kind, ?_⟩
  obtain ⟨c, front, rfl, reads⟩ := reads
  rw [← List.append_nil front] at reads ⊢
  rw [lastKind?, lexemes_cons (by simpa using reads)]
  simp [Lexeme.kind?]

/-- Rows of tokens make one row with a blank between them. -/
theorem Row.append (first : Row text kinds) (second : Row text' kinds') :
    Row (text ++ ' ' :: text') (kinds ++ kinds') := by
  obtain ⟨kind, ends⟩ := first.ends
  obtain ⟨kind', ends'⟩ := second.ends
  have all : lexemes (text ++ ' ' :: text') = lexemes text ++ lexemes (' ' :: text') :=
    lexemes_append first.clean ends rfl text'
  have last : lastKind? (' ' :: text') = some kind' := lastKind?_blank rfl ends'
  obtain ⟨same, clean⟩ := blank_cons (c := ' ') rfl text'
  refine ⟨?_, ?_, kind', ?_⟩
  · rw [Clean, all, List.forall_mem_append]
    exact ⟨first.clean, clean.mpr second.clean⟩
  · rw [pieces, all, List.filterMap_append, List.map_append, ← first.kinds_eq, ← second.kinds_eq,
      ← same]
    rfl
  · rw [lastKind?, all, List.getLast?_append_of_ne_nil _ (lexemes_ne_nil (by simp))]
    exact last

end Scan

end PixelScript
