import PixelScript.Proofs.Syntax.Reparse

/-! Two texts with a line break between them. No lexeme goes on behind a line break, so the
tokens of the first text stay as they are and those of the second are moved. Nothing that
is complete at the end of a text goes on at a line break either: only an `else` would be
looked for on later lines, and no program starts with one. -/
namespace PixelScript

namespace Scan

/-- Characters that no token goes on with. -/
def isDelimiter (c : Char) : Bool :=
  c == '\n' || isBlank c

theorem isDelimiter_iff : isDelimiter c = true ↔ c = '\n' ∨ c = ' ' ∨ c = '\t' ∨ c = '\r' := by
  simp [isDelimiter, isBlank, or_assoc]

theorem takeWhile_stop {p : Char → Bool} (stops : p stop = false) (cs more : List Char) :
    (cs ++ stop :: more).takeWhile p = cs.takeWhile p := by
  rw [List.takeWhile_append]
  split
  next whole =>
    rw [List.takeWhile_cons_of_neg (by simp [stops]), List.append_nil]
    exact (List.IsPrefix.eq_of_length (List.takeWhile_prefix p) whole).symm
  next => rfl

theorem fractionDigits_stop (other : stop ≠ '.') (stops : stop.isDigit = false)
    (cs more : List Char) : fractionDigits (cs ++ stop :: more) = fractionDigits cs := by
  cases cs with
  | nil => simp [fractionDigits, other]
  | cons c cs =>
    by_cases point : c = '.'
    · subst point
      exact takeWhile_stop stops cs more
    · simp [fractionDigits, point]

theorem readNumber_stop (other : stop ≠ '.') (stops : stop.isDigit = false) (c : Char)
    (cs more : List Char) : readNumber c (cs ++ stop :: more) = readNumber c cs := by
  simp only [readNumber]
  rw [takeWhile_stop stops, List.drop_append_of_le_length (length_takeWhile_le Char.isDigit cs),
    fractionDigits_stop other stops]

theorem closingQuote_append (closes : closingQuote? cs = some length) (extra : List Char) :
    closingQuote? (cs ++ extra) = some length := by
  fun_induction closingQuote? cs generalizing length with
  | case1 | case2 => contradiction
  | case3 c cs ih =>
    obtain ⟨inner, found, rfl⟩ := Option.map_eq_some_iff.mp closes
    rw [List.cons_append, List.cons_append, closingQuote?, ih found]
    rfl
  | case4 => simpa [closingQuote?] using closes
  | case5 c cs alone escaped other ih =>
    have plain : c ≠ '\\' := by
      rintro rfl
      cases cs with
      | nil => exact alone rfl rfl
      | cons c cs => exact escaped c cs rfl rfl
    obtain ⟨inner, found, rfl⟩ := Option.map_eq_some_iff.mp closes
    rw [List.cons_append, closingQuote_cons plain other, ih found]
    rfl

theorem readString_append (reads : readString cs = (lexeme, taken))
    (fine : ∀ cause, lexeme ≠ .failure cause) (extra : List Char) :
    readString (cs ++ extra) = (lexeme, taken) := by
  unfold readString at reads ⊢
  split at reads
  next length closes =>
    rw [closingQuote_append closes extra, ← reads]
    simp only [List.take_append_of_le_length (Nat.le_of_lt (closingQuote_lt closes))]
  next => exact absurd (Prod.mk.inj reads).1.symm (fine _)

/-- What does not have a character in it stands in front of the character or goes past it. -/
theorem prefix_stop {mark : List Char} (plain : stop ∉ mark) (cs more : List Char) :
    mark <+: cs ++ stop :: more ↔ mark <+: cs := by
  constructor
  · intro front
    by_cases fits : mark.length ≤ cs.length
    · exact List.prefix_of_prefix_length_le front (List.prefix_append cs _) fits
    · have past : cs ++ [stop] <+: mark :=
        List.prefix_of_prefix_length_le ⟨more, by simp⟩ front (by simp; omega)
      exact absurd (past.subset (by simp)) plain
  · exact fun front => front.trans (List.prefix_append cs _)

theorem readMark_delimiter (delimiter : isDelimiter stop = true) (c : Char) (cs more : List Char) :
    readMark c (cs ++ stop :: more) = readMark c cs := by
  -- only the line break itself has a delimiter, and it is a single character
  have plain : ∀ entry ∈ spellings, entry.1.toList.tail.any isDelimiter = false := by decide
  have same : spellings.find? (fun entry => entry.1.toList.isPrefixOf (c :: (cs ++ stop :: more))) =
      spellings.find? fun entry => entry.1.toList.isPrefixOf (c :: cs) := by
    refine List.find?_congr fun entry member => ?_
    have rest : stop ∉ entry.1.toList.tail := by
      intro inside
      exact absurd (List.any_eq_true.mpr ⟨stop, inside, delimiter⟩) (by simp [plain entry member])
    rw [Bool.eq_iff_iff, List.isPrefixOf_iff_prefix, List.isPrefixOf_iff_prefix]
    cases mark : entry.1.toList with
    | nil => simp
    | cons first later =>
      rw [mark, List.tail_cons] at rest
      rw [List.cons_prefix_cons, List.cons_prefix_cons, prefix_stop rest]
  simp only [readMark]
  rw [same]

theorem read_quote (cs : List Char) : read '"' cs = readString cs := by
  simp [read, isBlank, isWordStart]

/-- A delimiter behind a text does not change what its tokens are, and a line break does not
change what is skipped either. -/
theorem read_delimiter (delimiter : isDelimiter stop = true) (reads : read c cs = (lexeme, taken))
    (fine : ∀ cause, lexeme ≠ .failure cause) (solid : stop = '\n' ∨ lexeme ≠ .blank)
    (more : List Char) : read c (cs ++ stop :: more) = (lexeme, taken) := by
  by_cases quote : c = '"'
  · subst quote
    rw [read_quote] at reads ⊢
    exact readString_append reads fine _
  · have next : (cs ++ stop :: more).head? = some '/' ↔ cs.head? = some '/' := by
      cases cs with
      | nil => obtain rfl | rfl | rfl | rfl := isDelimiter_iff.mp delimiter <;> simp
      | cons => simp
    have others : stop ≠ '.' ∧ stop.isDigit = false ∧ isWordRest stop = false := by
      obtain rfl | rfl | rfl | rfl := isDelimiter_iff.mp delimiter <;> decide
    obtain ⟨point, digit, word⟩ := others
    unfold read at reads ⊢
    rw [if_neg quote] at reads ⊢
    simp only [readNumber_stop point digit, readMark_delimiter delimiter, readWord,
      takeWhile_stop word, next]
    obtain rfl | solid := solid
    · rw [takeWhile_stop rfl, takeWhile_stop rfl]
      exact reads
    · -- only what is skipped could go on with a blank
      split at reads
      · exact absurd (Prod.mk.inj reads).1.symm solid
      next other =>
        rw [if_neg other]
        split at reads
        · exact absurd (Prod.mk.inj reads).1.symm solid
        next other => rwa [if_neg other]

/-- The end of input is no lexeme. -/
theorem read_token (reads : read c cs = (.token kind, taken)) : kind ≠ .endOfInput := by
  have marks : ∀ entry ∈ spellings, entry.2.toClass ≠ .endOfInput := by decide
  rintro rfl
  unfold read at reads
  split at reads
  · simp at reads
  split at reads
  · simp at reads
  split at reads
  · simp [readNumber] at reads
  split at reads
  · simp only [readWord] at reads
    split at reads <;> simp at reads
  split at reads
  · unfold readString at reads
    split at reads <;> simp at reads
  · unfold readMark at reads
    split at reads
    next found =>
      obtain ⟨same, _⟩ := Prod.mk.inj reads
      refine marks _ (List.mem_of_find?_eq_some found) ?_
      rw [Lexeme.token.inj same]
      rfl
    next => simp at reads

theorem read_break (more : List Char) : read '\n' more = (.token .newline, 0) := rfl

end Scan

namespace Scans

theorem inside (scans : Scans offset text (front ++ [finish])) : Inside front := by
  generalize all : front ++ [finish] = tokens at scans
  induction scans generalizing front with
  | nil =>
    obtain ⟨rfl, _⟩ | ⟨_, absurd⟩ := List.append_eq_singleton_iff.mp all
    · exact .nil
    · cases absurd
  | skip _ _ ih => exact ih all
  | emit reads later ih =>
    cases front with
    | nil => exact .nil
    | cons token front =>
      obtain ⟨rfl, same⟩ := List.cons.inj all
      exact List.forall_mem_cons.mpr ⟨Scan.read_token reads, ih same⟩

/-- The same text at a later offset has the same tokens, each that much later. -/
theorem later (scans : Scans offset text tokens)
    (bound : distance + offset + Text.byteLength text ≤ Span.maxOffset) :
    Scans (distance + offset) text (tokens.map (Token.mapSpan (Span.shiftUp distance))) := by
  induction scans with
  | nil =>
    rw [List.map_singleton, Token.mapSpan,
      Span.shiftUp_ofRange (Nat.le_refl _) (by simpa using bound)]
    exact .nil
  | skip reads _ ih =>
    rw [← List.cons_append, Text.byteLength_append, ← Nat.add_assoc,
      Nat.add_assoc distance] at bound
    exact .skip reads (by rw [Nat.add_assoc]; exact ih bound)
  | emit reads _ ih =>
    rw [← List.cons_append, Text.byteLength_append, ← Nat.add_assoc,
      Nat.add_assoc distance] at bound
    rw [List.map_cons, Token.mapSpan, Span.shiftUp_ofRange (Nat.le_add_right ..) (by omega),
      ← Nat.add_assoc]
    exact .emit reads (by rw [Nat.add_assoc]; exact ih bound)

theorem line_break (scans : Scans (offset + 1) text tokens) :
    Scans offset ('\n' :: text)
      (⟨.newline, Span.ofRange offset (offset + Text.byteLength ['\n'])⟩ :: tokens) :=
  @emit _ [] _ _ _ _ (Scan.read_break text) scans

/-- The tokens of two texts with a line break between them. -/
theorem join (scans : Scans offset text (front ++ [finish]))
    (scans' : Scans (offset + Text.byteLength text + 1) text' tokens) :
    ∃ line, Scans offset (text ++ '\n' :: text') (front ++ ⟨.newline, line⟩ :: tokens) := by
  generalize all : front ++ [finish] = list at scans
  induction scans generalizing front with
  | nil =>
    obtain ⟨rfl, _⟩ | ⟨_, absurd⟩ := List.append_eq_singleton_iff.mp all
    · exact ⟨_, scans'.line_break⟩
    · cases absurd
  | @skip c taken back _ _ reads _ ih =>
    rw [← List.cons_append, Text.byteLength_append, ← Nat.add_assoc] at scans'
    obtain ⟨line, joined⟩ := ih scans' all
    have reads' := Scan.read_delimiter rfl reads (by simp) (.inl rfl) text'
    rw [List.append_assoc] at reads'
    exact ⟨line, by simpa using skip reads' joined⟩
  | @emit c taken back _ _ _ reads later ih =>
    cases front with
    | nil =>
      obtain ⟨_, rfl⟩ := List.cons.inj all
      obtain ⟨_, absurd⟩ := later.exists_end
      simp at absurd
    | cons token front =>
      obtain ⟨rfl, same⟩ := List.cons.inj all
      rw [← List.cons_append, Text.byteLength_append, ← Nat.add_assoc] at scans'
      obtain ⟨line, joined⟩ := ih scans' same
      have reads' := Scan.read_delimiter rfl reads (by simp) (.inl rfl) text'
      rw [List.append_assoc] at reads'
      exact ⟨line, by simpa using emit reads' joined⟩

end Scans

/-- No program starts with `else`. -/
theorem Spells.statements_ne_else (spelled : Spells (.statements false body) s rest) :
    Lookahead.currentClass (s ++ rest) ≠ .keyword .elseWord := by
  intro same
  cases spelled with
  | statementsEnd ends => simp_all [Lookahead.endsStatements]
  | @statementsMore _ _ n t _ _ _ head _ _ =>
    have first := head.first_class rfl ((n ++ t) ++ rest)
    rw [← List.append_assoc, same] at first
    simp [Phrase.first, TokenClass.opensExpression] at first

/-- A line break and another program offer no way to go on. -/
theorem Yields.of_newline (newlines : Newlines n)
    (spelled : Spells (.statements false body) s rest) :
    Yields true true old (⟨.newline, line⟩ :: (n ++ (s ++ rest))) where
  raised := id
  operator _ := rfl
  suffixes _ _ := rfl
  noElse _ := by
    have skipped : (⟨.newline, line⟩ :: (n ++ (s ++ rest))).dropWhile Lookahead.isNewline =
        s ++ rest := by
      rw [List.dropWhile_cons_of_pos rfl, newlines.dropWhile_append spelled.statements_next]
    rw [Lookahead.elseAhead, skipped, beq_eq_false_iff_ne]
    exact spelled.statements_ne_else
  arrow absurd := by simp [TokenKind.toClass] at absurd
  assign absurd := by simp [TokenKind.toClass] at absurd

/-- Statements go on with those behind newlines. -/
theorem Spells.statements_append (spelled : Spells (.statements inBlock body) s old)
    (some : body ≠ []) (newlines : Newlines n) (yields : Yields true true old (n ++ (t ++ rest)))
    (later : Spells (.statements inBlock more) t rest) :
    Spells (.statements inBlock (body ++ more)) (s ++ (n ++ t)) rest := by
  induction body generalizing s with
  | nil => contradiction
  | cons first body ih =>
    cases spelled with
    | @statementsMore _ s m u _ _ _ head between tail =>
      by_cases last : body = []
      · -- the newlines behind the last statement and those before the next are one run
        subst last
        cases tail
        have head' : Spells (.statement first) s ((m ++ n) ++ (t ++ rest)) := by
          rw [List.append_assoc]
          exact @Spells.keeps _ _ _ true _ head (.newlines between yields)
        have all : Newlines (m ++ n) := List.forall_mem_append.mpr ⟨between, newlines⟩
        simpa using statementsMore head' all later
      · have tail' := ih tail last
        have head' : Spells (.statement first) s (m ++ ((u ++ (n ++ t)) ++ rest)) := by
          refine @Spells.keeps _ _ _ true _ head (.newlines between ?_)
          simpa only [List.append_assoc] using Yields.segment tail.starts rfl (.inl rfl) yields
        simpa using statementsMore head' between tail'

theorem Spells.statements_end (spelled : Spells (.statements inBlock body) s rest) :
    Lookahead.endsStatements inBlock rest = true := by
  induction body generalizing s with
  | nil =>
    cases spelled with
    | statementsEnd ends => exact ends
  | cons first body ih =>
    cases spelled with
    | statementsMore _ _ tail => exact ih tail

/-- A program takes all tokens before the end of input. -/
theorem Spells.statements_whole (spelled : Spells (.statements false body) s rest)
    (newlines : Newlines n) (inside : Inside front) (isEnd : finish.kind = .endOfInput)
    (same : front ++ [finish] = n ++ (s ++ rest)) : front = n ++ s := by
  have taken : Inside (n ++ s) := newlines.inside.append spelled.inside
  have ends := spelled.statements_end
  rw [← List.append_assoc] at same
  cases rest with
  | nil =>
    rw [List.append_nil] at same
    exact absurd isEnd (taken finish (same ▸ List.mem_append_right front List.mem_cons_self))
  | cons token more =>
    have isEnd' : token.kind = .endOfInput := by
      cases kind : token.kind <;> simp_all [Lookahead.endsStatements, TokenKind.toClass]
    obtain rfl | ⟨more, last, rfl⟩ := List.eq_nil_or_concat' more
    · exact (List.append_inj' same rfl).1
    · rw [← List.cons_append, ← List.append_assoc] at same
      obtain ⟨rfl, _⟩ := List.append_inj' same rfl
      exact absurd isEnd' (inside token (List.mem_append_right _ List.mem_cons_self))

/-- The tokens of two programs with a newline between them. -/
theorem Program.ofTokens_join {program program' : Program} (inside : Inside front)
    (isEnd : finish.kind = .endOfInput)
    (parsed : Program.ofTokens (front ++ [finish]) = .ok program)
    (parsed' : Program.ofTokens tokens = .ok program') :
    Program.ofTokens (front ++ ⟨.newline, line⟩ :: tokens) =
      .ok ⟨program.statements ++ program'.statements⟩ := by
  obtain ⟨n, s, rest, newlines, same, spelled⟩ := Program.ofTokens_eq_ok_iff.mp parsed
  obtain ⟨m, t, rest', newlines', rfl, spelled'⟩ := Program.ofTokens_eq_ok_iff.mp parsed'
  have between : Newlines (⟨.newline, line⟩ :: m) := List.forall_mem_cons.mpr ⟨rfl, newlines'⟩
  obtain rfl := spelled.statements_whole newlines inside isEnd same
  refine Program.ofTokens_eq_ok_iff.mpr ?_
  by_cases empty : program.statements = []
  · rw [empty] at spelled ⊢
    cases spelled
    refine ⟨n ++ ⟨.newline, line⟩ :: m, t, rest', ?_, by simp, spelled'⟩
    exact List.forall_mem_append.mpr ⟨newlines, between⟩
  · have joined := spelled.statements_append empty between (.of_newline newlines' spelled') spelled'
    exact ⟨n, _, rest', newlines, by simp, joined⟩

theorem Program.ofTokens_mapSpan {change : Span → Span} (hom : MergeHom change)
    (parsed : Program.ofTokens tokens = .ok program) :
    Program.ofTokens (tokens.map (Token.mapSpan change)) = .ok (program.mapSpan change) := by
  obtain ⟨n, s, rest, newlines, rfl, spelled⟩ := Program.ofTokens_eq_ok_iff.mp parsed
  exact Program.ofTokens_eq_ok_iff.mpr
    ⟨_, _, _, newlines.mapSpan, by rw [List.map_append, List.map_append], spelled.mapSpan hom⟩

/-- Two texts that parse do so with a line break between them, where the second is moved. -/
theorem Program.parse_append {source source' : String} {program program' : Program}
    (bound : Text.byteLength source.toList + 1 + Text.byteLength source'.toList ≤ Span.maxOffset)
    (parsed : Program.parse source = .ok program) (parsed' : Program.parse source' = .ok program') :
    Program.parse (source ++ "\n" ++ source') = .ok ⟨program.statements ++
      Stmt.mapSpans (Span.shiftUp (Text.byteLength source.toList + 1)) program'.statements⟩ := by
  obtain ⟨_, scans, spelled⟩ := Program.parse_eq_ok_iff.mp parsed
  obtain ⟨tokens, scans', spelled'⟩ := Program.parse_eq_ok_iff.mp parsed'
  obtain ⟨front, rfl⟩ := scans.exists_end
  have moved := scans'.later bound
  rw [Nat.add_zero] at moved
  obtain ⟨line, joined⟩ := scans.join (by rw [Nat.zero_add]; exact moved)
  have text : (source ++ "\n" ++ source').toList = source.toList ++ '\n' :: source'.toList := by
    simp
  rw [← text] at joined
  have shifted := Program.ofTokens_mapSpan
    (Span.shiftUp_mergeHom (Text.byteLength source.toList + 1)) spelled'
  exact Program.parse_eq_ok_iff.mpr
    ⟨_, joined, Program.ofTokens_join scans.inside rfl spelled shifted⟩

end PixelScript
