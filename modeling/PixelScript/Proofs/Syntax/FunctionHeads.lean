import PixelScript.Proofs.Syntax.Refusal
import PixelScript.Syntax.Cursor

/-! Function heads. At an opening parenthesis the parser looks ahead to tell a function from an
expression in parentheses, and then reads the head again, by rules that are laxer than those of
the lookahead: commas may be missing, or one too many. What the lookahead has accepted is
nevertheless read as it is, name by name, so that only the body of a function can be refused. -/
namespace PixelScript
open Grammar

/-- The kinds of the tokens in front of a function's body. -/
def functionHead (names : List String) : List TokenKind :=
  .punctuation .leftParen :: ((names.map .identifier).intersperse (.punctuation .comma) ++
    [.punctuation .rightParen, .punctuation .arrow])

/-- What is left of a function behind its head: newlines, and the body. -/
def Grammar.functionBody (fuel : Nat) (trailing : Bool) (start : Span) (names : List String) :
    Parser Expr := do
  skipNewlines
  let body ← blockOrExpression fuel trailing true
  return .function names body (start.merge body.span)

theorem parameterNames_iff : ParameterNames (name :: names) p ↔
    p.map (·.kind) = ((name :: names).map .identifier).intersperse (.punctuation .comma) := by
  induction names generalizing name p with
  | nil =>
    simp only [List.map_cons, List.map_nil, List.intersperse_singleton]
    constructor
    · intro spelled
      cases spelled with
      | one => rfl
      | more later => cases later
    · intro kinds
      obtain ⟨⟨_, span⟩, rfl, rfl⟩ := List.map_eq_singleton_iff.mp kinds
      exact .one
  | cons next names ih =>
    simp only [List.map_cons, List.intersperse_cons_cons] at ih ⊢
    constructor
    · intro spelled
      cases spelled with
      | more later => rw [List.map_cons, List.map_cons, ih.mp later]
    · intro kinds
      obtain ⟨⟨_, span⟩, behind, rfl, rfl, kinds'⟩ := List.map_eq_cons_iff.mp kinds
      obtain ⟨⟨_, comma⟩, later, rfl, rfl, kinds''⟩ := List.map_eq_cons_iff.mp kinds'
      exact .more (ih.mpr kinds'')

/-- Parameters are told by the kinds of their tokens. -/
theorem parameters_iff : Parameters names p ↔
    p.map (·.kind) = (names.map .identifier).intersperse (.punctuation .comma) := by
  cases names with
  | nil =>
    constructor
    · intro spelled
      cases spelled with
      | none => rfl
      | some spelled => cases spelled
    · intro kinds
      obtain rfl := List.map_eq_nil_iff.mp kinds
      exact .none
  | cons name names =>
    rw [← parameterNames_iff]
    constructor
    · intro spelled
      cases spelled with
      | some spelled => exact spelled
    · exact .some

theorem Parameters.length_head (spelled : Parameters names p) :
    (functionHead names).length = p.length + 3 := by
  have size := congrArg List.length (parameters_iff.mp spelled)
  rw [List.length_map] at size
  simp [functionHead, size]

/-- Tokens that start with the kinds of a head are a parenthesis, parameters, a parenthesis and
an arrow. -/
theorem starts_functionHead_iff : functionHead names <+: tokens.map (·.kind) ↔
    ∃ start p close arrow later, Parameters names p ∧
      tokens = ⟨.punctuation .leftParen, start⟩ :: (p ++ ⟨.punctuation .rightParen, close⟩ ::
        ⟨.punctuation .arrow, arrow⟩ :: later) := by
  constructor
  · rintro ⟨rest, kinds⟩
    simp only [functionHead, List.cons_append, List.append_assoc, List.nil_append] at kinds
    obtain ⟨⟨_, start⟩, _, rfl, rfl, inner⟩ := List.map_eq_cons_iff.mp kinds.symm
    obtain ⟨p, _, rfl, named, ending⟩ := List.map_eq_append_iff.mp inner
    obtain ⟨⟨_, close⟩, _, rfl, rfl, ending'⟩ := List.map_eq_cons_iff.mp ending
    obtain ⟨⟨_, arrow⟩, later, rfl, rfl, _⟩ := List.map_eq_cons_iff.mp ending'
    exact ⟨start, p, close, arrow, later, parameters_iff.mpr named, rfl⟩
  · rintro ⟨start, p, close, arrow, later, spelled, rfl⟩
    refine ⟨later.map (·.kind), ?_⟩
    simp [functionHead, parameters_iff.mp spelled]

/-- A refusal is at a place that the goal has come to, whatever the fuel. -/
theorem Goal.Refuses.rest_suffix {goal : Goal} {failure : Unexpected}
    (failed : goal.Refuses fuel tokens failure) : failure.rest <:+ tokens := by
  induction fuel generalizing goal tokens with
  | zero =>
    obtain rfl : failure = ⟨"expression", tokens⟩ := by
      cases goal with
      | function => exact (Except.error.inj failed.2.2).symm
      | _ => exact (Except.error.inj failed).symm
    exact List.suffix_rfl
  | succ fuel ih =>
    cases Recognition.broken failed with
    | stops => exact List.suffix_append ..
    | enters _ within => exact (ih within).trans (List.suffix_append ..)

theorem Parser.bind_of_ok {α β : Type} {parser : Parser α} {next : α → Parser β} {value : α}
    {tokens rest : List Token} (ran : parser tokens = .ok (value, rest)) :
    (parser >>= next) tokens = next value rest := by
  change (parser tokens >>= fun (value, rest) => next value rest) = next value rest
  rw [ran]
  rfl

/-- Behind a head that is spelled by the rules, the body is all that is left to read. -/
theorem Grammar.function_head (spelled : Parameters names p) (fuel : Nat) (trailing : Bool) :
    function (fuel + 1) trailing (⟨.punctuation .leftParen, start⟩ ::
        (p ++ ⟨.punctuation .rightParen, close⟩ :: ⟨.punctuation .arrow, arrow⟩ :: later)) =
      functionBody fuel trailing start names later := by
  rw [function, Parser.bind_of_ok (expect_punctuation.mpr rfl),
    Parser.bind_of_ok (parameters_ok spelled), Parser.bind_of_ok (expect_punctuation.mpr rfl),
    Parser.bind_of_ok (expect_punctuation.mpr rfl)]
  rfl

theorem Grammar.functionBody_error {failure : Unexpected}
    (failed : functionBody fuel trailing start names later = .error failure) :
    blockOrExpression fuel trailing true (later.dropWhile Lookahead.isNewline) =
      .error failure := by
  simpa only [functionBody, Parser.bind_error, skipNewlines_error, skipNewlines_ok,
    Parser.pure_error, and_false, exists_false, or_false, false_or, exists_const,
    exists_eq_left'] using failed

/-- The lookahead and the parser agree on the heads of functions. At an opening parenthesis the
lookahead accepts exactly a list of names with commas between them, in parentheses and before
an arrow. There the parser takes these tokens and no others before it reads the body, and it
fails only if the body does, at a place behind the arrow. -/
theorem Cursor.isFunctionHead_agrees (cursor : Cursor) (start : Span)
    (opens : cursor.current = ⟨.punctuation .leftParen, start⟩) :
    (cursor.isFunctionHead = true ↔
      ∃ names, functionHead names <+: cursor.rest.map (·.kind)) ∧
    ∀ names, functionHead names <+: cursor.rest.map (·.kind) → ∀ fuel trailing,
      let later := cursor.rest.drop (functionHead names).length
      function (fuel + 1) trailing cursor.rest = functionBody fuel trailing start names later ∧
      ∀ failure, function (fuel + 1) trailing cursor.rest = .error failure →
        blockOrExpression fuel trailing true (later.dropWhile Lookahead.isNewline) =
            .error failure ∧
          failure.rest <:+ later := by
  have opens' : Lookahead.current cursor.rest = ⟨.punctuation .leftParen, start⟩ := opens
  rw [Cursor.isFunctionHead]
  generalize cursor.rest = tokens at opens' ⊢
  constructor
  · rw [Lookahead.isFunctionHead_iff]
    constructor
    · rintro ⟨first, names, p, close, arrow, later, spelled, rfl⟩
      obtain rfl : first = ⟨.punctuation .leftParen, start⟩ := opens'
      exact ⟨names, starts_functionHead_iff.mpr ⟨start, p, close, arrow, later, spelled, rfl⟩⟩
    · rintro ⟨names, head⟩
      obtain ⟨_, p, close, arrow, later, spelled, rfl⟩ := starts_functionHead_iff.mp head
      exact ⟨_, names, p, close, arrow, later, spelled, rfl⟩
  · intro names head fuel trailing later
    obtain ⟨_, p, close, arrow, rest, spelled, rfl⟩ := starts_functionHead_iff.mp head
    obtain ⟨-, rfl⟩ := Token.mk.inj opens'
    have behind : later = rest := by
      simp only [later, spelled.length_head, List.drop_succ_cons]
      rw [List.drop_append]
      simp
    rw [behind, function_head spelled]
    refine ⟨rfl, fun failure failed => ?_⟩
    have refused := functionBody_error failed
    have place : Goal.Refuses fuel _ failure (.blockOrExpression trailing true) := refused
    exact ⟨refused, place.rest_suffix.trans (List.dropWhile_suffix _)⟩

/-- A function whose first parameter has the name of an operator, and whose body is missing, in
the middle of a list of tokens. -/
theorem Cursor.isFunctionHead_agrees_operator :
    let tokens : List Token := [⟨.identifier "f", ⟨0, 1⟩⟩, ⟨.punctuation .leftParen, ⟨1, 2⟩⟩,
      ⟨.identifier "plus", ⟨2, 3⟩⟩, ⟨.punctuation .comma, ⟨3, 4⟩⟩, ⟨.identifier "a", ⟨4, 5⟩⟩,
      ⟨.punctuation .rightParen, ⟨5, 6⟩⟩, ⟨.punctuation .arrow, ⟨6, 8⟩⟩, ⟨.endOfInput, ⟨8, 8⟩⟩]
    let cursor := (Cursor.start tokens).seek 1
    cursor.current = ⟨.punctuation .leftParen, ⟨1, 2⟩⟩ ∧ cursor.isFunctionHead = true ∧
      functionHead ["plus", "a"] <+: cursor.rest.map (·.kind) ∧
      function 9 true cursor.rest = .error ⟨"expression", [⟨.endOfInput, ⟨8, 8⟩⟩]⟩ ∧
      functionBody 8 true ⟨1, 2⟩ ["plus", "a"] [⟨.endOfInput, ⟨8, 8⟩⟩] =
        .error ⟨"expression", [⟨.endOfInput, ⟨8, 8⟩⟩]⟩ := by
  intro tokens cursor
  obtain ⟨found, reads⟩ := Cursor.isFunctionHead_agrees cursor ⟨1, 2⟩ rfl
  have head : functionHead ["plus", "a"] <+: cursor.rest.map (·.kind) := ⟨[.endOfInput], rfl⟩
  obtain ⟨same, -⟩ := reads _ head 8 true
  have failed : functionBody 8 true ⟨1, 2⟩ ["plus", "a"] [⟨.endOfInput, ⟨8, 8⟩⟩] =
      .error ⟨"expression", [⟨.endOfInput, ⟨8, 8⟩⟩]⟩ := by rfl
  exact ⟨rfl, found.mpr ⟨_, head⟩, head, same.trans failed, failed⟩

end PixelScript
