import PixelScript.Proofs.Syntax.Progress
import PixelScript.Proofs.Syntax.Writing
import PixelScript.Proofs.Token.Spelling

/-! Spelling and spacing do not matter. The parser looks at the kinds of tokens only, so that
a failure comes at the same token with the same message wherever the tokens stand, as a
phrase is the same up to spans. Other spellings of the tokens of a text, with blanks between
them, have the same kinds. -/
namespace PixelScript
open Grammar

variable {change : Span → Span}

def Goal.mapSpan (change : Span → Span) : Goal → Goal
  | operations trailing left => operations trailing (left.mapSpan change)
  | suffixes trailing value => suffixes trailing (value.mapSpan change)
  | goal => goal

/-- Tokens with other spans lead to the same parts with other spans. -/
theorem Enters.mapSpan (hom : MergeHom change) (enters : Enters goal s part later) :
    Enters (goal.mapSpan change) (s.map (Token.mapSpan change)) (part.mapSpan change)
      (later.map (Token.mapSpan change)) := by
  cases enters with
  | expressionHead => exact .expressionHead
  | expressionTail head => exact .expressionTail (head.mapSpan hom)
  | operationsHead found => exact .operationsHead found
  | operationsTail found head =>
    simp only [Goal.mapSpan, Expr.mapSpan, hom _ _, ← Expr.span_mapSpan change]
    exact .operationsTail found (head.mapSpan hom)
  | callHead => exact .callHead
  | callTail head => exact .callTail (head.mapSpan hom)
  | suffixesCallHead opens => exact .suffixesCallHead (by simpa using opens)
  | suffixesCallTail head =>
    simp only [Goal.mapSpan, Expr.mapSpan, hom _ _, ← Expr.span_mapSpan change]
    exact .suffixesCallTail (head.mapSpan hom)
  | suffixesMethodHead => exact .suffixesMethodHead
  | suffixesMethodTail head =>
    simp only [Goal.mapSpan, Expr.mapSpan, hom _ _, ← Expr.span_mapSpan change]
    exact .suffixesMethodTail (head.mapSpan hom)
  | suffixesBlock isCall opens =>
    exact .suffixesBlock (by rw [Expr.isCall_mapSpan, isCall]) (by simpa using opens)
  | arguments newlines next => exact .arguments newlines.mapSpan (by simpa using next)
  | argumentsHead opens => exact .argumentsHead (by simpa using opens)
  | argumentsTail head newlines newlines' next =>
    have head := head.mapSpan hom
    simp only [List.map_append, List.map_cons] at head ⊢
    exact .argumentsTail head newlines.mapSpan newlines'.mapSpan (by simpa using next)
  | primaryConditional opens => exact .primaryConditional (by simpa using opens)
  | primaryBlock opens => exact .primaryBlock (by simpa using opens)
  | primaryFunction opens head =>
    exact .primaryFunction (by simpa using opens) (by simpa using head)
  | primaryParenthesized opens plain =>
    exact .primaryParenthesized (by simpa using opens) (by simpa using plain)
  | parenthesized newlines next => exact .parenthesized newlines.mapSpan (by simpa using next)
  | function parameters newlines next =>
    simp only [List.map_append, List.map_cons]
    exact .function parameters.mapSpan newlines.mapSpan (by simpa using next)
  | braced opens => exact .braced (by simpa using opens)
  | bare unbraced => exact .bare (by simpa using unbraced)
  | condition => exact .condition
  | branch condition newlines next =>
    have condition := condition.mapSpan hom
    simp only [List.map_append, List.map_cons] at condition ⊢
    exact .branch condition newlines.mapSpan (by simpa using next)
  | otherwise condition newlines branch newlines' =>
    have condition := condition.mapSpan hom
    have branch := branch.mapSpan hom
    simp only [List.map_append, List.map_cons] at condition branch ⊢
    exact .otherwise condition newlines.mapSpan branch newlines'.mapSpan
  | alternativeConditional opens => exact .alternativeConditional (by simpa using opens)
  | alternative newlines next plain =>
    refine .alternative newlines.mapSpan (by simpa using next) ?_
    rwa [← List.map_append, Lookahead.currentClass_mapSpan]
  | block newlines next => exact .block newlines.mapSpan (by simpa using next)
  | statementsHead goesOn => exact .statementsHead (by simpa using goesOn)
  | statementsTail head newlines next =>
    have head := head.mapSpan hom
    rw [List.map_append] at head ⊢
    exact .statementsTail head newlines.mapSpan (by simpa using next)
  | declare => exact .declare
  | assign => exact .assign
  | iterable => exact .iterable
  | body head => exact .body (head.mapSpan hom)
  | expressionStatement plain noLet noFor =>
    exact .expressionStatement (by simpa using plain) (by simpa using noLet) (by simpa using noFor)

theorem Stops.mapSpan (hom : MergeHom change) (stops : Stops goal s rest expected) :
    Stops (goal.mapSpan change) (s.map (Token.mapSpan change)) (rest.map (Token.mapSpan change))
      expected := by
  cases stops with
  | method other => exact .method (by simpa using other)
  | arguments other => exact .arguments (by simpa using other)
  | argumentsClose head newlines next last other =>
    have head := head.mapSpan hom
    rw [List.map_append] at head ⊢
    exact .argumentsClose head newlines.mapSpan (by simpa using next) (by simpa using last)
      (by simpa using other)
  | primary other => exact .primary (by simpa using other)
  | parenthesized other => exact .parenthesized (by simpa using other)
  | parenthesizedClose newlines inner newlines' next other =>
    have inner := inner.mapSpan hom
    simp only [List.map_append, List.map_cons] at inner ⊢
    exact .parenthesizedClose newlines.mapSpan inner newlines'.mapSpan (by simpa using next)
      (by simpa using other)
  | conditional other => exact .conditional (by simpa using other)
  | block other => exact .block (by simpa using other)
  | blockClose newlines inner other =>
    rw [List.map_cons, List.map_append]
    exact .blockClose newlines.mapSpan (inner.mapSpan hom) (by simpa using other)
  | declareName other => exact .declareName (by simpa using other)
  | declareMark other => exact .declareMark (by simpa using other)
  | forEachName other => exact .forEachName (by simpa using other)
  | forEachWord other => exact .forEachWord (by simpa using other)

/-- Tokens with other spans fail at the same place and miss the same. -/
theorem Fails.mapSpan (hom : MergeHom change) (fails : Fails goal s rest expected) :
    Fails (goal.mapSpan change) (s.map (Token.mapSpan change)) (rest.map (Token.mapSpan change))
      expected := by
  induction fails with
  | here stops => exact .here (stops.mapSpan hom)
  | inside enters _ ih =>
    rw [List.map_append]
    refine .inside ?_ ih
    rw [← List.map_append]
    exact enters.mapSpan hom

variable {tokens tokens' : List Token}

/-- What makes a program: newlines, then statements. The answer is the same with more fuel. -/
theorem Grammar.program_eq_ok_iff {program : Program} {rest : List Token}
    (enough : fuelFor tokens ≤ fuel) :
    Grammar.program fuel tokens = .ok (program, rest) ↔
      ∃ n s, Newlines n ∧ tokens = n ++ (s ++ rest) ∧
        Spells (.statements false program.statements) s rest := by
  rw [Grammar.program_ok]
  constructor
  · intro parsed
    obtain ⟨n, newlines, split⟩ := exists_newlines tokens
    obtain ⟨s, same, spelled⟩ :=
      Recognition.sound fuel (.statements false program.statements) _ _ parsed
    exact ⟨n, s, newlines, same ▸ split, spelled⟩
  · rintro ⟨n, s, newlines, rfl, spelled⟩
    rw [newlines.dropWhile_append spelled.statements_next]
    refine spelled.complete fuel ?_
    simp only [fuelFor, List.length_append] at enough
    simp only [Phrase.depth]
    omega

/-- An answer of the parser with other spans. -/
def Grammar.mapAnswer (change : Span → Span) :
    Except Unexpected (Program × List Token) → Except Unexpected (Program × List Token)
  | .ok (program, rest) => .ok (program.mapSpan change, rest.map (Token.mapSpan change))
  | .error ⟨expected, rest⟩ => .error ⟨expected, rest.map (Token.mapSpan change)⟩

/-- Parsing does not depend on where the tokens stand, whether it fails or not. -/
theorem Grammar.program_mapSpan (hom : MergeHom change) (enough : fuelFor tokens ≤ fuel) :
    Grammar.program fuel (tokens.map (Token.mapSpan change)) =
      mapAnswer change (Grammar.program fuel tokens) := by
  have enough' : fuelFor (tokens.map (Token.mapSpan change)) ≤ fuel := by
    simpa [fuelFor] using enough
  cases answer : Grammar.program fuel tokens with
  | ok found =>
    obtain ⟨program, rest⟩ := found
    obtain ⟨n, s, newlines, rfl, spelled⟩ := (program_eq_ok_iff enough).mp answer
    refine (program_eq_ok_iff enough').mpr ⟨n.map (Token.mapSpan change),
      s.map (Token.mapSpan change), newlines.mapSpan, ?_, spelled.mapSpan hom⟩
    simp only [List.map_append]
  | error failure =>
    obtain ⟨expected, rest⟩ := failure
    obtain ⟨n, s, newlines, rfl, next, fails⟩ := (program_eq_error_iff enough).mp answer
    refine (program_eq_error_iff enough').mpr ⟨n.map (Token.mapSpan change),
      s.map (Token.mapSpan change), newlines.mapSpan, ?_, ?_, fails.mapSpan hom⟩
    · simp only [List.map_append]
    · rwa [← List.map_append, Lookahead.currentClass_mapSpan]

theorem Span.erase_mergeHom : MergeHom fun _ => .point 0 := by
  intro _ _
  rfl

/-- Without their spans, tokens are their kinds. -/
theorem Token.map_erase (tokens : List Token) :
    tokens.map (Token.mapSpan fun _ => .point 0) = (tokens.map (·.kind)).map Token.unplaced := by
  rw [List.map_map]
  rfl

theorem Token.map_erase_eq_iff :
    tokens'.map (Token.mapSpan fun _ => .point 0) = tokens.map (Token.mapSpan fun _ => .point 0) ↔
      tokens'.map (·.kind) = tokens.map (·.kind) := by
  rw [Token.map_erase, Token.map_erase]
  refine List.map_inj_right ?_
  intro _ _ same
  exact (Token.mk.inj same).1

/-- Two answers to tokens of the same kinds: programs that are equal up to spans, or failures
at the same place with the same expectation. -/
theorem Grammar.program_of_kinds (same : tokens'.map (·.kind) = tokens.map (·.kind)) :
    (∃ program program', Program.ofTokens tokens = .ok program ∧
        Program.ofTokens tokens' = .ok program' ∧ program'.eraseSpans = program.eraseSpans) ∨
      ∃ expected rest rest', Grammar.program (fuelFor tokens) tokens = .error ⟨expected, rest⟩ ∧
        Grammar.program (fuelFor tokens') tokens' = .error ⟨expected, rest'⟩ ∧
        rest'.map (·.kind) = rest.map (·.kind) := by
  have length : fuelFor tokens' = fuelFor tokens := by
    simpa [fuelFor] using congrArg List.length same
  have answers : mapAnswer (fun _ => .point 0) (Grammar.program (fuelFor tokens') tokens') =
      mapAnswer (fun _ => .point 0) (Grammar.program (fuelFor tokens) tokens) := by
    rw [← program_mapSpan Span.erase_mergeHom (Nat.le_refl _), length,
      ← program_mapSpan Span.erase_mergeHom (Nat.le_refl _), Token.map_erase_eq_iff.mpr same]
  have parsed : ∀ {list program rest}, Grammar.program (fuelFor list) list = .ok (program, rest) →
      Program.ofTokens list = .ok program := by
    intro list program rest answer
    rw [Program.ofTokens, answer]
  cases first : Grammar.program (fuelFor tokens) tokens with
  | ok found =>
    cases second : Grammar.program (fuelFor tokens') tokens' with
    | ok found' =>
      rw [first, second] at answers
      exact .inl ⟨_, _, parsed first, parsed second, (Prod.mk.inj (Except.ok.inj answers)).1⟩
    | error failure =>
      rw [first, second] at answers
      cases answers
  | error failure =>
    cases second : Grammar.program (fuelFor tokens') tokens' with
    | ok found =>
      rw [first, second] at answers
      cases answers
    | error failure' =>
      rw [first, second] at answers
      obtain ⟨expected, later⟩ := Unexpected.mk.inj (Except.error.inj answers)
      exact .inr ⟨failure.expected, failure.rest, failure'.rest, rfl, expected ▸ rfl,
        Token.map_erase_eq_iff.mp later⟩

theorem Program.ofTokens_of_kinds {program : Program}
    (same : tokens'.map (·.kind) = tokens.map (·.kind))
    (parsed : Program.ofTokens tokens = .ok program) :
    ∃ program', Program.ofTokens tokens' = .ok program' ∧
      program'.eraseSpans = program.eraseSpans := by
  obtain ⟨_, program', found, parsed', equal⟩ | ⟨_, _, _, refused, _⟩ :=
    Grammar.program_of_kinds same
  · obtain rfl := Except.ok.inj (found.symm.trans parsed)
    exact ⟨program', parsed', equal⟩
  · rw [Program.ofTokens, refused] at parsed
    contradiction

/-- The tokens of a text are the tokens of a whole one. -/
theorem Scans.ended (scans : Scans offset text tokens) : Ended tokens ∧ tokens ≠ [] := by
  obtain ⟨front, rfl⟩ := scans.exists_end
  exact ⟨.inr ⟨front, _, rfl, rfl⟩, by simp⟩

theorem Grammar.program_error_taken
    (refused : Grammar.program (fuelFor tokens) tokens = .error ⟨expected, rest⟩) :
    ∃ taken, tokens = taken ++ rest ∧ Inside taken := by
  obtain ⟨n, s, newlines, split, _, fails⟩ := (program_eq_error_iff (Nat.le_refl _)).mp refused
  exact ⟨n ++ s, by rw [split, List.append_assoc], newlines.inside.append fails.taken_inside⟩

theorem Program.parse_eq_error {failure : Unexpected} (scanned : Token.scan source = .ok tokens)
    (refused : Grammar.program (fuelFor tokens) tokens = .error failure) :
    Program.parse source = .error (.ofUnexpected failure) := by
  rw [Program.parse, scanned]
  exact Program.ofTokens_eq_error_iff.mpr ⟨failure, refused, rfl⟩

/-- Where two texts with tokens of the same kinds are refused, they are so at the same token
with the same message. -/
theorem Program.parse_error_of_kinds (scanned : Token.scan source = .ok tokens)
    (scanned' : Token.scan source' = .ok tokens')
    (same : tokens'.map (·.kind) = tokens.map (·.kind))
    (refused : Grammar.program (fuelFor tokens) tokens = .error ⟨expected, rest⟩)
    (refused' : Grammar.program (fuelFor tokens') tokens' = .error ⟨expected, rest'⟩)
    (later : rest'.map (·.kind) = rest.map (·.kind)) :
    ∃ k token token', tokens[k]? = some token ∧ tokens'[k]? = some token' ∧
      tokens.drop k = rest ∧ tokens'.drop k = rest' ∧
      Program.parse source =
        .error (.unexpectedToken expected token.kind.description token.span) ∧
      Program.parse source' =
        .error (.unexpectedToken expected token.kind.description token'.span) := by
  obtain ⟨ended, solid⟩ := (Scan.tokensFrom_eq_ok_iff.mp scanned).ended
  obtain ⟨ended', solid'⟩ := (Scan.tokensFrom_eq_ok_iff.mp scanned').ended
  obtain ⟨taken, split, inside⟩ := Grammar.program_error_taken refused
  obtain ⟨taken', split', inside'⟩ := Grammar.program_error_taken refused'
  obtain ⟨token, found, named⟩ := ended.stopped solid split inside
  obtain ⟨token', found', named'⟩ := ended'.stopped solid' split' inside'
  have length : taken'.length = taken.length := by
    have all := congrArg List.length same
    have rests := congrArg List.length later
    rw [split, split'] at all
    simp only [List.length_map, List.length_append] at all rests
    omega
  rw [length] at found'
  have kind : token'.kind = token.kind := by
    have at' := congrArg (·[taken.length]?) same
    simpa [found, found'] using at'
  refine ⟨taken.length, token, token', found, found', (ended.place split inside).2.2,
    length ▸ (ended'.place split' inside').2.2, ?_, ?_⟩
  · rw [Program.parse_eq_error scanned refused, named]
  · rw [Program.parse_eq_error scanned' refused', named', kind]

/-- Spelling and spacing do not matter. Where each token of a text is written with its own
characters or, if it names an operator, with any spelling of the operator, and blanks stand
between the tokens, the new text has tokens of the same kinds. Both texts parse to programs
that are equal up to spans, or both are refused at the same token with the same message. The
pieces of the text are the characters of its tokens: they are the slices that the spans give,
as long as the text is not too long for spans. -/
theorem Program.parse_respelled (source source' : String) (tokens : List Token)
    (texts : List (List Char)) (scanned : Token.scan source = .ok tokens)
    (respelled : List.Forall₂ Respells (Scan.pieces source.toList) texts)
    (spaced : Spaced texts source'.toList) :
    tokens.map (·.kind) = (Scan.pieces source.toList).map (·.1) ++ [.endOfInput] ∧
    (Text.byteLength source.toList ≤ Span.maxOffset → List.Forall₂
      (fun token piece => token.span.slice? source.toList = some piece.2) tokens.dropLast
      (Scan.pieces source.toList)) ∧
    ∃ tokens', Token.scan source' = .ok tokens' ∧ tokens'.map (·.kind) = tokens.map (·.kind) ∧
      ((∃ program program', Program.parse source = .ok program ∧
          Program.parse source' = .ok program' ∧ program'.eraseSpans = program.eraseSpans) ∨
        ∃ k token token' expected, tokens[k]? = some token ∧ tokens'[k]? = some token' ∧
          Grammar.program (fuelFor tokens) tokens = .error ⟨expected, tokens.drop k⟩ ∧
          Grammar.program (fuelFor tokens') tokens' = .error ⟨expected, tokens'.drop k⟩ ∧
          Program.parse source =
            .error (.unexpectedToken expected token.kind.description token.span) ∧
          Program.parse source' =
            .error (.unexpectedToken expected token.kind.description token'.span)) := by
  have scans := Scan.tokensFrom_eq_ok_iff.mp scanned
  refine ⟨scans.kinds, fun bound => Scans.slices [] scans bound, ?_⟩
  have reads := Respells.reads_all respelled fun _ => Scan.reads_of_mem_pieces
  obtain ⟨clean, kinds⟩ := spaced.pieces_eq reads
  obtain ⟨tokens', scans'⟩ := Scans.exists_of_clean clean 0
  have scanned' : Token.scan source' = .ok tokens' := Scan.tokensFrom_eq_ok_iff.mpr scans'
  have same : tokens'.map (·.kind) = tokens.map (·.kind) := by
    rw [scans'.kinds, kinds, scans.kinds]
  refine ⟨tokens', scanned', same, ?_⟩
  obtain ⟨program, program', parsed, parsed', equal⟩ |
    ⟨expected, rest, rest', refused, refused', later⟩ := Grammar.program_of_kinds same
  · exact .inl ⟨program, program', Program.parse_eq_ok_iff.mpr ⟨_, scans, parsed⟩,
      Program.parse_eq_ok_iff.mpr ⟨_, scans', parsed'⟩, equal⟩
  · obtain ⟨k, token, token', found, found', rfl, rfl, failed, failed'⟩ :=
      Program.parse_error_of_kinds scanned scanned' same refused refused' later
    exact .inr ⟨k, token, token', expected, found, found', refused, refused', failed, failed'⟩

/-- `a+b` and, with a tab and a blank in it, `a plus b`. -/
theorem Program.parse_respelled_plus :
    let texts := ["a".toList, "plus".toList, "b".toList]
    (∃ tokens, Token.scan "a+b" = .ok tokens) ∧
      List.Forall₂ Respells (Scan.pieces "a+b".toList) texts ∧ Spaced texts "a\tplus b".toList ∧
      ∃ program program', Program.parse "a+b" = .ok program ∧
        Program.parse "a\tplus b" = .ok program' ∧ program'.eraseSpans = program.eraseSpans := by
  have scanned : Token.scan "a+b" = .ok [⟨.identifier "a", ⟨0, 1⟩⟩, ⟨.identifier "plus", ⟨1, 2⟩⟩,
      ⟨.identifier "b", ⟨2, 3⟩⟩, ⟨.endOfInput, ⟨3, 3⟩⟩] := by cbv
  have own : Scan.pieces "a+b".toList = [(.identifier "a", "a".toList),
      (.identifier "plus", "+".toList), (.identifier "b", "b".toList)] := by cbv
  have respelled : List.Forall₂ Respells (Scan.pieces "a+b".toList)
      ["a".toList, "plus".toList, "b".toList] := by
    rw [own]
    exact .cons .own (.cons (.word rfl) (.cons .own .nil))
  have spaced : Spaced ["a".toList, "plus".toList, "b".toList] "a\tplus b".toList :=
    @Spaced.text '\t' _ _ ['a'] (.inr (.inl rfl))
      (@Spaced.text ' ' _ _ ['p', 'l', 'u', 's'] (.inl rfl) .last)
  obtain ⟨_, _, _, _, _, parsed | ⟨_, _, _, _, _, _, refused, _⟩⟩ :=
    Program.parse_respelled "a+b" "a\tplus b" _ _ scanned respelled spaced
  · exact ⟨⟨_, scanned⟩, respelled, spaced, parsed⟩
  · cases refused

end PixelScript
