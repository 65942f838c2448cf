import PixelScript.Proofs.Syntax.Phrase
import PixelScript.Syntax.Cursor

/-! Successes of the parser's basic steps. Each lemma says when a step succeeds and what
it leaves, so that a success of a whole production is read off as a chain of them. -/
namespace PixelScript
open Grammar

/-- Sequencing of parsers, read off a success. -/
theorem Parser.bind_ok {α β : Type} {parser : Parser α} {next : α → Parser β}
    {tokens rest : List Token} {result : β} :
    (parser >>= next) tokens = .ok (result, rest) ↔
      ∃ value middle, parser tokens = .ok (value, middle) ∧
        next value middle = .ok (result, rest) := by
  simp only [bind, StateT.bind, Except.bind]
  cases parser tokens with
  | error failure => simp
  | ok pair =>
    obtain ⟨value, middle⟩ := pair
    constructor
    · intro parsed
      exact ⟨value, middle, rfl, parsed⟩
    · rintro ⟨_, _, same, parsed⟩
      cases same
      exact parsed

theorem Parser.pure_ok {α : Type} {value result : α} {tokens rest : List Token} :
    (pure value : Parser α) tokens = .ok (result, rest) ↔ value = result ∧ tokens = rest := by
  simp [pure, StateT.pure, Except.pure]

theorem Parser.get_ok {tokens view rest : List Token} :
    (get : Parser (List Token)) tokens = .ok (view, rest) ↔ tokens = view ∧ tokens = rest := by
  simp [get, getThe, MonadStateOf.get, StateT.get, pure, Except.pure]

theorem Parser.set_ok {tokens new rest : List Token} {result : PUnit} :
    (set new : Parser PUnit) tokens = .ok (result, rest) ↔ new = rest := by
  simp [set, StateT.set, pure, Except.pure]

namespace Grammar

theorem unexpected_ok {α : Type} {expected : String} {tokens rest : List Token} {result : α} :
    (unexpected expected : Parser α) tokens = .ok (result, rest) ↔ False := by
  simp [unexpected]

theorem peek_ok : peek tokens = .ok (next, rest) ↔
    Lookahead.currentClass tokens = next ∧ tokens = rest := by
  simp [peek]

theorem advance_ok {result : Unit} : advance tokens = .ok (result, rest) ↔ tokens.tail = rest := by
  simp [advance]

theorem skipNewlines_ok {result : Unit} : skipNewlines tokens = .ok (result, rest) ↔
    tokens.dropWhile Lookahead.isNewline = rest := by
  simp [skipNewlines]

theorem expect_ok : expect expected tokens = .ok (span, rest) ↔
    ∃ kind, kind.toClass = expected ∧ tokens = ⟨kind, span⟩ :: rest := by
  cases tokens with
  | nil => simp [expect]
  | cons token more =>
    obtain ⟨kind, place⟩ := token
    simp only [expect]
    split
    next same =>
      constructor
      · intro parsed
        cases parsed
        exact ⟨kind, same, rfl⟩
      · rintro ⟨_, _, found⟩
        cases found
        rfl
    next other =>
      constructor
      · intro parsed
        contradiction
      · rintro ⟨_, same, found⟩
        cases found
        contradiction

/-- Marks and words are the only tokens of their classes. -/
theorem toClass_eq_punctuation {kind : TokenKind} :
    kind.toClass = .punctuation mark ↔ kind = .punctuation mark := by
  cases kind <;> simp [TokenKind.toClass]

theorem toClass_eq_keyword {kind : TokenKind} :
    kind.toClass = .keyword word ↔ kind = .keyword word := by
  cases kind <;> simp [TokenKind.toClass]

theorem expect_punctuation : expect (.punctuation mark) tokens = .ok (span, rest) ↔
    tokens = ⟨.punctuation mark, span⟩ :: rest := by
  simp only [expect_ok, toClass_eq_punctuation, exists_eq_left]

theorem expect_keyword : expect (.keyword word) tokens = .ok (span, rest) ↔
    tokens = ⟨.keyword word, span⟩ :: rest := by
  simp only [expect_ok, toClass_eq_keyword, exists_eq_left]

theorem expectIdentifier_ok : expectIdentifier tokens = .ok (name, rest) ↔
    ∃ span, tokens = ⟨.identifier name, span⟩ :: rest := by
  unfold expectIdentifier
  split <;> simp_all

theorem takeElse_ok : takeElse tokens = .ok (found, rest) ↔
    (found = true ∧ ∃ n word, Newlines n ∧ tokens = n ++ ⟨.keyword .elseWord, word⟩ :: rest) ∨
      (found = false ∧ Lookahead.elseAhead tokens = false ∧ tokens = rest) := by
  obtain ⟨n, newlines, split⟩ := exists_newlines tokens
  unfold takeElse Lookahead.elseAhead
  split
  next word more dropped =>
    rw [dropped] at split
    simp only [dropped, Lookahead.currentClass_cons, TokenKind.toClass, Except.ok.injEq,
      Prod.mk.injEq]
    constructor
    · rintro ⟨rfl, rfl⟩
      exact .inl ⟨rfl, n, word, newlines, split⟩
    · rintro (⟨rfl, m, word', others, same⟩ | ⟨_, absurd, _⟩)
      · have skipped := others.dropWhile_cons ⟨.keyword .elseWord, word'⟩ rest rfl
        rw [← same, dropped] at skipped
        cases skipped
        exact ⟨rfl, rfl⟩
      · simp at absurd
  next other =>
    have none : Lookahead.currentClass (tokens.dropWhile Lookahead.isNewline) ≠
        .keyword .elseWord := by
      cases dropped : tokens.dropWhile Lookahead.isNewline with
      | nil => simp
      | cons token more =>
        obtain ⟨kind, span⟩ := token
        intro same
        cases kind <;> simp_all [TokenKind.toClass]
    simp only [Except.ok.injEq, Prod.mk.injEq, beq_eq_false_iff_ne, ne_eq]
    constructor
    · rintro ⟨rfl, rfl⟩
      exact .inr ⟨rfl, none, rfl⟩
    · rintro (⟨_, m, word, others, same⟩ | ⟨rfl, _, rfl⟩)
      · have skipped := others.dropWhile_cons ⟨.keyword .elseWord, word⟩ rest rfl
        rw [← same] at skipped
        exact absurd (by rw [skipped]; rfl) none
      · exact ⟨rfl, rfl⟩

theorem parameters_names (names : ParameterNames params p) :
    parameters (p ++ ⟨.punctuation .rightParen, close⟩ :: rest) =
      .ok (params, ⟨.punctuation .rightParen, close⟩ :: rest) := by
  induction names with
  | one => rfl
  | more later ih => simp only [List.cons_append, parameters, ih]; rfl

theorem parameters_ok (spelled : Parameters params p) :
    parameters (p ++ ⟨.punctuation .rightParen, close⟩ :: rest) =
      .ok (params, ⟨.punctuation .rightParen, close⟩ :: rest) := by
  cases spelled with
  | none => rfl
  | some names => exact parameters_names names

end Grammar

namespace Lookahead

theorem isParameterList_iff : isParameterList tokens = true ↔
    ∃ params p close arrow rest, ParameterNames params p ∧
      tokens = p ++ ⟨.punctuation .rightParen, close⟩ :: ⟨.punctuation .arrow, arrow⟩ :: rest := by
  constructor
  · intro found
    fun_induction isParameterList tokens with
    | case1 name span comma rest ih =>
      obtain ⟨params, p, close, arrow, more, names, rfl⟩ := ih found
      exact ⟨name :: params, _, close, arrow, more, .more names, rfl⟩
    | case2 name span close arrow rest => exact ⟨[name], _, close, arrow, rest, .one, rfl⟩
    | case3 => contradiction
  · rintro ⟨params, p, close, arrow, rest, names, rfl⟩
    induction names with
    | one => rfl
    | more later ih => exact ih

/-- The lookahead recognizes exactly the heads of functions. -/
theorem isFunctionHead_iff : isFunctionHead tokens = true ↔
    ∃ first params p close arrow rest, Parameters params p ∧
      tokens = first :: (p ++ ⟨.punctuation .rightParen, close⟩ ::
        ⟨.punctuation .arrow, arrow⟩ :: rest) := by
  constructor
  · intro found
    unfold isFunctionHead at found
    split at found
    next first close arrow rest => exact ⟨first, [], [], close, arrow, rest, .none, rfl⟩
    next first rest _ =>
      obtain ⟨params, p, close, arrow, more, names, rfl⟩ := isParameterList_iff.mp found
      exact ⟨first, params, p, close, arrow, more, .some names, rfl⟩
    next => contradiction
  · rintro ⟨first, params, p, close, arrow, rest, spelled, rfl⟩
    cases spelled with
    | none => rfl
    | some names =>
      have found := isParameterList_iff.mpr ⟨params, p, close, arrow, rest, names, rfl⟩
      unfold isFunctionHead
      split <;> simp_all

end Lookahead

theorem exists_of_currentClass (next : Lookahead.currentClass tokens = expected)
    (more : expected ≠ .endOfInput) :
    ∃ kind span rest, kind.toClass = expected ∧ tokens = ⟨kind, span⟩ :: rest := by
  cases tokens with
  | nil => exact absurd next.symm more
  | cons token rest => exact ⟨token.kind, token.span, rest, next, rfl⟩

theorem exists_punctuation (next : Lookahead.currentClass tokens = .punctuation mark) :
    ∃ span more, tokens = ⟨.punctuation mark, span⟩ :: more := by
  obtain ⟨kind, span, more, same, rfl⟩ := exists_of_currentClass next nofun
  obtain rfl := toClass_eq_punctuation.mp same
  exact ⟨span, more, rfl⟩

theorem exists_keyword (next : Lookahead.currentClass tokens = .keyword word) :
    ∃ span more, tokens = ⟨.keyword word, span⟩ :: more := by
  obtain ⟨kind, span, more, same, rfl⟩ := exists_of_currentClass next nofun
  obtain rfl := toClass_eq_keyword.mp same
  exact ⟨span, more, rfl⟩

namespace Cursor

section Agreement

variable {cursor : Cursor}

theorem rest_eq_cons (inside : cursor.position < cursor.tokens.length) :
    cursor.rest = cursor.current :: cursor.tokens.drop (cursor.position + 1) := by
  have here : cursor.tokens.drop cursor.position = _ := List.drop_eq_getElem_cons inside
  rw [current, rest, here]
  rfl

/-- Before the last token the cursor moves as the parser does. -/
theorem rest_advance (more : cursor.position + 1 < cursor.tokens.length) :
    cursor.rest = cursor.current :: cursor.advance.2.rest := by
  rw [rest_eq_cons (Nat.lt_of_succ_lt more), advance, if_pos more]
  rfl

theorem advance_agrees (more : cursor.position + 1 < cursor.tokens.length) :
    Grammar.advance cursor.rest = .ok ((), cursor.advance.2.rest) := by
  rw [Grammar.advance_ok, rest_advance more, List.tail_cons]

/-- On the last token the cursor stays, while the parser has no token left. -/
theorem advance_last (last : cursor.position + 1 = cursor.tokens.length) :
    cursor.advance.2 = cursor ∧ Grammar.advance cursor.rest = .ok ((), []) := by
  constructor
  · rw [advance, if_neg last.not_lt]
  · rw [Grammar.advance_ok, rest_eq_cons (last ▸ Nat.lt_succ_self _), List.tail_cons, last,
      List.drop_length]

theorem skipNewlines_agrees (cursor : Cursor) :
    Grammar.skipNewlines cursor.rest = .ok ((), cursor.skipNewlines.rest) := by
  have split := List.takeWhile_append_dropWhile (p := Lookahead.isNewline) (l := cursor.rest)
  have dropped : cursor.rest.drop (cursor.rest.takeWhile Lookahead.isNewline).length =
      cursor.rest.dropWhile Lookahead.isNewline :=
    (congrArg (List.drop _) split.symm).trans List.drop_left
  rw [Grammar.skipNewlines_ok, ← dropped, rest, List.drop_drop]
  rfl

theorem expect_agrees (more : cursor.position + 1 < cursor.tokens.length)
    (expected : TokenClass) : Grammar.expect expected cursor.rest =
      (cursor.expect expected).map fun (token, after) => (token.span, after.rest) := by
  have class_eq : Lookahead.currentClass cursor.rest = cursor.current.kind.toClass := rfl
  rw [expect, check, unexpected, class_eq, rest_advance more, Grammar.expect]
  by_cases fits : cursor.current.kind.toClass = expected
  · rw [if_pos fits, if_pos (beq_iff_eq.mpr fits)]
    rfl
  · rw [if_neg fits, if_neg (mt beq_iff_eq.mp fits)]
    rfl

theorem expectIdentifier_agrees (more : cursor.position + 1 < cursor.tokens.length) :
    Grammar.expectIdentifier cursor.rest =
      cursor.expectIdentifier.map fun (name, after) => (name, after.rest) := by
  have taken : cursor.advance = (cursor.current, cursor.advance.2) := rfl
  rw [expectIdentifier, unexpected, rest_advance more, taken]
  generalize cursor.current = token
  obtain ⟨kind, span⟩ := token
  cases kind <;> rfl

end Agreement

end Cursor
end PixelScript
