import PixelScript.Proofs.Syntax.Steps

/-! What the parser takes spells the phrase that it gives. Every production is read off
one success; the induction is on the fuel. -/
namespace PixelScript
open Grammar

/-- The parser gives the phrase from `tokens` and leaves `rest`. A function is only tried
where the lookahead has found its head. -/
def Phrase.Parses (fuel : Nat) (tokens rest : List Token) : Phrase → Prop
  | expression trailing result => Grammar.expression fuel trailing tokens = .ok (result, rest)
  | operations trailing left result =>
    Grammar.operations fuel trailing left tokens = .ok (result, rest)
  | call trailing result => Grammar.call fuel trailing tokens = .ok (result, rest)
  | suffixes trailing value result =>
    callSuffixes fuel trailing value tokens = .ok (result, rest)
  | arguments args close => Grammar.arguments fuel tokens = .ok ((args, close), rest)
  | argumentsTail args close => Grammar.argumentsTail fuel tokens = .ok ((args, close), rest)
  | primary trailing result => Grammar.primary fuel trailing tokens = .ok (result, rest)
  | parenthesized result => Grammar.parenthesized fuel tokens = .ok (result, rest)
  | function trailing result =>
    Lookahead.isFunctionHead tokens = true ∧
      Grammar.function fuel trailing tokens = .ok (result, rest)
  | blockOrExpression trailing isFunctionBody result =>
    Grammar.blockOrExpression fuel trailing isFunctionBody tokens = .ok (result, rest)
  | conditional trailing result => Grammar.conditional fuel trailing tokens = .ok (result, rest)
  | alternative trailing result => Grammar.alternative fuel trailing tokens = .ok (result, rest)
  | block isFunctionBody result => Grammar.block fuel isFunctionBody tokens = .ok (result, rest)
  | statements inBlock result => Grammar.statements fuel inBlock tokens = .ok (result, rest)
  | statement result => Grammar.statement fuel tokens = .ok (result, rest)

/-- Some front of the tokens spells the phrase before `rest`. -/
def Phrase.SpelledBy (phrase : Phrase) (tokens rest : List Token) : Prop :=
  ∃ s, tokens = s ++ rest ∧ Spells phrase s rest

namespace Recognition

/-- Every phrase parsed with this fuel is spelled by what was taken. -/
def Sound (fuel : Nat) : Prop :=
  ∀ (phrase : Phrase) (tokens rest : List Token),
    phrase.Parses fuel tokens rest → phrase.SpelledBy tokens rest

variable {fuel : Nat} {trailing : Bool} {tokens rest : List Token}

theorem expression_spelled (ih : Sound fuel)
    (parsed : expression (fuel + 1) trailing tokens = .ok (result, rest)) :
    (Phrase.expression trailing result).SpelledBy tokens rest := by
  simp only [expression, Parser.bind_ok] at parsed
  obtain ⟨first, middle, head, tail⟩ := parsed
  obtain ⟨t, rfl, later⟩ := ih (.operations trailing first result) _ _ tail
  obtain ⟨s, rfl, front⟩ := ih (.call trailing first) _ _ head
  exact ⟨s ++ t, (List.append_assoc ..).symm, .expression front later⟩

theorem operations_spelled (ih : Sound fuel)
    (parsed : operations (fuel + 1) trailing left tokens = .ok (result, rest)) :
    (Phrase.operations trailing left result).SpelledBy tokens rest := by
  simp only [operations, Parser.bind_ok, Parser.get_ok] at parsed
  obtain ⟨_, _, ⟨rfl, rfl⟩, parsed⟩ := parsed
  generalize found : (Lookahead.current tokens).kind.operator? = operator? at parsed
  split at parsed
  next operator =>
    simp only [Parser.bind_ok, advance_ok] at parsed
    obtain ⟨_, _, rfl, right, middle, head, tail⟩ := parsed
    cases tokens with
    | nil =>
      simp [Lookahead.current, Lookahead.tokenAt, Token.pastEnd, TokenKind.operator?] at found
    | cons token more =>
      obtain ⟨t, rfl, later⟩ := ih (.operations trailing _ result) _ _ tail
      obtain ⟨s, same, front⟩ := ih (.call trailing right) _ _ head
      simp only [List.tail_cons] at same
      subst same
      exact ⟨token :: (s ++ t), by simp, .operationsMore found front later⟩
  next =>
    obtain ⟨rfl, rfl⟩ := Parser.pure_ok.mp parsed
    exact ⟨[], rfl, .operationsEnd found⟩

theorem call_spelled (ih : Sound fuel)
    (parsed : call (fuel + 1) trailing tokens = .ok (result, rest)) :
    (Phrase.call trailing result).SpelledBy tokens rest := by
  simp only [call, Parser.bind_ok] at parsed
  obtain ⟨first, middle, head, tail⟩ := parsed
  obtain ⟨t, rfl, later⟩ := ih (.suffixes trailing first result) _ _ tail
  obtain ⟨s, rfl, front⟩ := ih (.primary trailing first) _ _ head
  exact ⟨s ++ t, (List.append_assoc ..).symm, .call front later⟩

theorem suffixes_spelled (ih : Sound fuel)
    (parsed : callSuffixes (fuel + 1) trailing value tokens = .ok (result, rest)) :
    (Phrase.suffixes trailing value result).SpelledBy tokens rest := by
  simp only [callSuffixes, Parser.bind_ok, peek_ok] at parsed
  obtain ⟨_, _, ⟨rfl, rfl⟩, parsed⟩ := parsed
  generalize next : Lookahead.currentClass tokens = found at parsed
  split at parsed
  next =>
    simp only [Parser.bind_ok] at parsed
    obtain ⟨⟨args, close⟩, middle, head, tail⟩ := parsed
    obtain ⟨t, rfl, later⟩ := ih (.suffixes trailing _ result) _ _ tail
    obtain ⟨s, rfl, front⟩ := ih (.arguments args close) _ _ head
    exact ⟨s ++ t, (List.append_assoc ..).symm, .suffixesCall front later⟩
  next =>
    simp only [Parser.bind_ok, advance_ok, expectIdentifier_ok] at parsed
    obtain ⟨_, _, rfl, method, _, ⟨name, named⟩, ⟨args, close⟩, middle, head, tail⟩ := parsed
    obtain ⟨t, rfl, later⟩ := ih (.suffixes trailing _ result) _ _ tail
    obtain ⟨s, rfl, front⟩ := ih (.arguments args close) _ _ head
    obtain ⟨dot, more, rfl⟩ := exists_punctuation next
    simp only [List.tail_cons] at named
    subst named
    exact ⟨⟨_, dot⟩ :: ⟨_, name⟩ :: (s ++ t), by simp, .suffixesMethod front later⟩
  next =>
    split at parsed
    next taken =>
      simp only [Bool.and_eq_true] at taken
      obtain ⟨isCall, rfl⟩ := taken
      simp only [Parser.bind_ok, Parser.pure_ok] at parsed
      obtain ⟨body, _, inner, rfl, rfl⟩ := parsed
      obtain ⟨s, rfl, spelled⟩ := ih (.block true body) _ _ inner
      exact ⟨s, rfl, .suffixesBlock isCall spelled⟩
    next left =>
      obtain ⟨rfl, rfl⟩ := Parser.pure_ok.mp parsed
      refine ⟨[], rfl, .suffixesEnd ?_⟩
      simpa only [Lookahead.endsSuffixes, next, Bool.not_eq_true'] using Bool.eq_false_iff.mpr left
  next notOpen notDot notBrace =>
    obtain ⟨rfl, rfl⟩ := Parser.pure_ok.mp parsed
    refine ⟨[], rfl, .suffixesEnd ?_⟩
    unfold Lookahead.endsSuffixes
    split <;> simp_all

theorem arguments_spelled (ih : Sound fuel)
    (parsed : arguments (fuel + 1) tokens = .ok ((args, close), rest)) :
    (Phrase.arguments args close).SpelledBy tokens rest := by
  simp only [arguments, Parser.bind_ok, expect_punctuation, skipNewlines_ok] at parsed
  obtain ⟨start, after, rfl, _, _, rfl, tail⟩ := parsed
  obtain ⟨n, newlines, split⟩ := exists_newlines after
  obtain ⟨s, same, later⟩ := ih (.argumentsTail args close) _ _ tail
  rw [same] at split
  subst split
  exact ⟨⟨_, start⟩ :: (n ++ s), by simp, .arguments newlines later⟩

theorem argumentsTail_spelled (ih : Sound fuel)
    (parsed : argumentsTail (fuel + 1) tokens = .ok ((args, close), rest)) :
    (Phrase.argumentsTail args close).SpelledBy tokens rest := by
  simp only [argumentsTail, Parser.bind_ok, peek_ok] at parsed
  obtain ⟨_, _, ⟨rfl, rfl⟩, parsed⟩ := parsed
  split at parsed
  · simp only [Parser.bind_ok, expect_punctuation, Parser.pure_ok, Prod.mk.injEq] at parsed
    obtain ⟨_, _, rfl, ⟨rfl, rfl⟩, rfl⟩ := parsed
    exact ⟨[_], rfl, .argumentsNone⟩
  · simp only [Parser.bind_ok, skipNewlines_ok, peek_ok] at parsed
    obtain ⟨first, after, head, _, _, rfl, _, _, ⟨rfl, rfl⟩, parsed⟩ := parsed
    obtain ⟨n, newlines, split⟩ := exists_newlines after
    split at parsed
    next comma =>
      simp only [Parser.bind_ok, advance_ok, skipNewlines_ok, Parser.pure_ok, Prod.mk.injEq]
        at parsed
      obtain ⟨_, _, rfl, _, _, rfl, ⟨more, _⟩, _, tail, ⟨rfl, rfl⟩, rfl⟩ := parsed
      obtain ⟨span, more', same⟩ := exists_punctuation comma
      rw [same] at split tail
      simp only [List.tail_cons] at tail
      obtain ⟨m, newlines', split'⟩ := exists_newlines more'
      obtain ⟨t, same', later⟩ := ih (.argumentsTail more _) _ _ tail
      rw [same'] at split'
      subst split' split
      obtain ⟨s, rfl, front⟩ := ih (.expression true first) _ _ head
      exact ⟨s ++ (n ++ ⟨_, span⟩ :: (m ++ t)), by simp,
        .argumentsMore front newlines newlines' later⟩
    next last =>
      simp only [Parser.bind_ok, expect_punctuation, Parser.pure_ok, Prod.mk.injEq] at parsed
      obtain ⟨_, _, same, ⟨rfl, rfl⟩, rfl⟩ := parsed
      rw [same] at split
      subst split
      obtain ⟨s, rfl, front⟩ := ih (.expression true first) _ _ head
      exact ⟨s ++ (n ++ [_]), by simp, .argumentsLast front newlines⟩

theorem primary_spelled (ih : Sound fuel)
    (parsed : primary (fuel + 1) trailing tokens = .ok (result, rest)) :
    (Phrase.primary trailing result).SpelledBy tokens rest := by
  simp only [primary, Parser.bind_ok, Parser.get_ok] at parsed
  obtain ⟨found, _, ⟨rfl, rfl⟩, parsed⟩ := parsed
  generalize same : tokens = found at parsed
  split at parsed
  case h_1 | h_2 | h_3 | h_4 | h_5 | h_6 =>
    simp only [Parser.bind_ok, advance_ok, Parser.pure_ok] at parsed
    obtain ⟨_, _, rfl, rfl, rfl⟩ := parsed
    subst same
    exact ⟨[_], rfl, by constructor⟩
  next =>
    obtain ⟨s, split, spelled⟩ := ih (.conditional trailing result) _ _ parsed
    exact ⟨s, split, .primaryConditional spelled⟩
  next =>
    simp only [Parser.bind_ok, Parser.pure_ok] at parsed
    obtain ⟨body, _, inner, rfl, rfl⟩ := parsed
    obtain ⟨s, split, spelled⟩ := ih (.block false body) _ _ inner
    exact ⟨s, split, .primaryBlock spelled⟩
  next span more =>
    split at parsed
    next head =>
      obtain ⟨s, split, spelled⟩ := ih (.function trailing result) _ _ ⟨head, parsed⟩
      exact ⟨s, split, .primaryFunction spelled⟩
    next plain =>
      obtain ⟨s, split, spelled⟩ := ih (.parenthesized result) _ _ parsed
      rw [split, Bool.not_eq_true] at plain
      exact ⟨s, split, .primaryParenthesized spelled plain⟩
  next => exact (unexpected_ok.mp parsed).elim

theorem parenthesized_spelled (ih : Sound fuel)
    (parsed : parenthesized (fuel + 1) tokens = .ok (result, rest)) :
    (Phrase.parenthesized result).SpelledBy tokens rest := by
  simp only [parenthesized, Parser.bind_ok, expect_punctuation, skipNewlines_ok,
    Parser.pure_ok] at parsed
  obtain ⟨start, after, rfl, _, _, rfl, inner, behind, middle, _, _, rfl, close, _, closed, rfl,
    rfl⟩ :=
    parsed
  obtain ⟨n, newlines, split⟩ := exists_newlines after
  obtain ⟨m, newlines', split'⟩ := exists_newlines behind
  rw [closed] at split'
  obtain ⟨s, same, spelled⟩ := ih (.expression true inner) _ _ middle
  subst split'
  rw [same] at split
  subst split
  exact ⟨⟨_, start⟩ :: (n ++ (s ++ (m ++ [⟨_, close⟩]))), by simp,
    .parenthesized newlines spelled newlines'⟩

theorem function_spelled (ih : Sound fuel) (head : Lookahead.isFunctionHead tokens = true)
    (parsed : function (fuel + 1) trailing tokens = .ok (result, rest)) :
    (Phrase.function trailing result).SpelledBy tokens rest := by
  obtain ⟨first, params, p, close, arrow, after, parameters, rfl⟩ :=
    Lookahead.isFunctionHead_iff.mp head
  simp only [function, Parser.bind_ok, expect_punctuation, skipNewlines_ok,
    Parser.pure_ok] at parsed
  obtain ⟨start, _, same, names, _, named, _, _, closed, _, _, arrowed, _, _, rfl, body, _, inner,
    rfl, rfl⟩ := parsed
  cases same
  rw [parameters_ok parameters] at named
  cases named
  cases closed
  cases arrowed
  obtain ⟨n, newlines, split⟩ := exists_newlines after
  obtain ⟨s, same, spelled⟩ := ih (.blockOrExpression trailing true body) _ _ inner
  rw [same] at split
  subst split
  exact ⟨⟨_, start⟩ :: (p ++ ⟨_, close⟩ :: ⟨_, arrow⟩ :: (n ++ s)), by simp,
    .function parameters newlines spelled⟩

theorem blockOrExpression_spelled (ih : Sound fuel)
    (parsed : blockOrExpression (fuel + 1) trailing isFunctionBody tokens = .ok (result, rest)) :
    (Phrase.blockOrExpression trailing isFunctionBody result).SpelledBy tokens rest := by
  simp only [blockOrExpression, Parser.bind_ok, peek_ok] at parsed
  obtain ⟨_, _, ⟨rfl, rfl⟩, parsed⟩ := parsed
  split at parsed
  next brace =>
    obtain ⟨s, rfl, spelled⟩ := ih (.block isFunctionBody result) _ _ parsed
    exact ⟨s, rfl, .braced spelled⟩
  next unbraced =>
    simp only [Parser.bind_ok, Parser.pure_ok] at parsed
    obtain ⟨value, _, inner, rfl, rfl⟩ := parsed
    obtain ⟨s, rfl, spelled⟩ := ih (.expression trailing value) _ _ inner
    rw [spelled.currentClass_append rfl] at unbraced
    exact ⟨s, rfl, .bare spelled unbraced⟩

theorem conditional_spelled (ih : Sound fuel)
    (parsed : conditional (fuel + 1) trailing tokens = .ok (result, rest)) :
    (Phrase.conditional trailing result).SpelledBy tokens rest := by
  simp only [conditional, Parser.bind_ok, expect_keyword, skipNewlines_ok] at parsed
  obtain ⟨start, _, rfl, test, after, condition, _, _, rfl, thenBranch, behind, branch, found, _,
    taken, parsed⟩ := parsed
  obtain ⟨n, newlines, split⟩ := exists_newlines after
  obtain ⟨t, same, branchSpelled⟩ := ih (.blockOrExpression trailing false thenBranch) _ _ branch
  rw [same] at split
  subst split
  obtain ⟨s, rfl, conditionSpelled⟩ := ih (.expression false test) _ _ condition
  obtain ⟨rfl, m, word, newlines', rfl⟩ | ⟨rfl, noElse, rfl⟩ := takeElse_ok.mp taken
  · simp only [if_true, Parser.bind_ok, Parser.pure_ok] at parsed
    obtain ⟨elseBranch, _, other, rfl, rfl⟩ := parsed
    obtain ⟨u, rfl, otherSpelled⟩ := ih (.alternative trailing elseBranch) _ _ other
    exact ⟨⟨_, start⟩ :: (s ++ (n ++ (t ++ (m ++ ⟨_, word⟩ :: u)))), by simp,
      .conditionalElse conditionSpelled newlines branchSpelled newlines' otherSpelled⟩
  · simp only [Bool.false_eq_true, if_false, Parser.pure_ok] at parsed
    obtain ⟨rfl, rfl⟩ := parsed
    exact ⟨⟨_, start⟩ :: (s ++ (n ++ t)), by simp,
      .conditional conditionSpelled newlines branchSpelled noElse⟩

theorem alternative_spelled (ih : Sound fuel)
    (parsed : alternative (fuel + 1) trailing tokens = .ok (result, rest)) :
    (Phrase.alternative trailing result).SpelledBy tokens rest := by
  simp only [alternative, Parser.bind_ok, peek_ok] at parsed
  obtain ⟨_, _, ⟨rfl, rfl⟩, parsed⟩ := parsed
  split at parsed
  next =>
    simp only [Parser.bind_ok, Parser.pure_ok] at parsed
    obtain ⟨nested, _, inner, rfl, rfl⟩ := parsed
    obtain ⟨s, rfl, spelled⟩ := ih (.conditional trailing nested) _ _ inner
    exact ⟨s, rfl, .alternativeConditional spelled⟩
  next plain =>
    simp only [Parser.bind_ok, skipNewlines_ok] at parsed
    obtain ⟨_, _, rfl, inner⟩ := parsed
    obtain ⟨n, newlines, split⟩ := exists_newlines tokens
    obtain ⟨s, same, spelled⟩ := ih (.blockOrExpression trailing false result) _ _ inner
    rw [same] at split
    subst split
    refine ⟨n ++ s, by simp, .alternative newlines spelled ?_⟩
    cases n with
    | nil => rwa [List.nil_append, spelled.currentClass_append rfl] at plain
    | cons token more => exact plain

theorem block_spelled (ih : Sound fuel)
    (parsed : block (fuel + 1) isFunctionBody tokens = .ok (result, rest)) :
    (Phrase.block isFunctionBody result).SpelledBy tokens rest := by
  simp only [block, Parser.bind_ok, expect_punctuation, skipNewlines_ok, Parser.pure_ok] at parsed
  obtain ⟨start, after, rfl, _, _, rfl, body, _, inner, close, _, rfl, rfl, rfl⟩ := parsed
  obtain ⟨n, newlines, split⟩ := exists_newlines after
  obtain ⟨s, same, spelled⟩ := ih (.statements true body) _ _ inner
  rw [same] at split
  subst split
  exact ⟨⟨_, start⟩ :: (n ++ (s ++ [⟨_, close⟩])), by simp, .block newlines spelled⟩

theorem statements_spelled (ih : Sound fuel)
    (parsed : statements (fuel + 1) inBlock tokens = .ok (result, rest)) :
    (Phrase.statements inBlock result).SpelledBy tokens rest := by
  simp only [statements, Parser.bind_ok, peek_ok] at parsed
  obtain ⟨_, _, ⟨rfl, rfl⟩, parsed⟩ := parsed
  split at parsed
  next ends =>
    obtain ⟨rfl, rfl⟩ := Parser.pure_ok.mp parsed
    exact ⟨[], rfl, .statementsEnd (by simpa [Lookahead.endsStatements] using ends)⟩
  next =>
    simp only [Parser.bind_ok, skipNewlines_ok, Parser.pure_ok] at parsed
    obtain ⟨first, after, head, _, _, rfl, more, _, tail, rfl, rfl⟩ := parsed
    obtain ⟨n, newlines, split⟩ := exists_newlines after
    obtain ⟨t, same, later⟩ := ih (.statements inBlock more) _ _ tail
    rw [same] at split
    subst split
    obtain ⟨s, rfl, front⟩ := ih (.statement first) _ _ head
    exact ⟨s ++ (n ++ t), by simp, .statementsMore front newlines later⟩

theorem statement_spelled (ih : Sound fuel)
    (parsed : statement (fuel + 1) tokens = .ok (result, rest)) :
    (Phrase.statement result).SpelledBy tokens rest := by
  simp only [statement, Parser.bind_ok, Parser.get_ok] at parsed
  obtain ⟨found, _, ⟨rfl, rfl⟩, parsed⟩ := parsed
  generalize same : tokens = found at parsed
  split at parsed
  next start more =>
    subst same
    simp only [Parser.bind_ok, advance_ok, expectIdentifier_ok, expect_punctuation,
      Parser.pure_ok] at parsed
    obtain ⟨_, _, rfl, name, _, ⟨word, rfl⟩, mark, _, rfl, value, _, inner, rfl, rfl⟩ := parsed
    obtain ⟨s, rfl, spelled⟩ := ih (.expression true value) _ _ inner
    exact ⟨⟨_, start⟩ :: ⟨_, word⟩ :: ⟨_, mark⟩ :: s, rfl, .declare spelled⟩
  next start more =>
    subst same
    simp only [Parser.bind_ok, advance_ok, expectIdentifier_ok, expect_keyword,
      Parser.pure_ok] at parsed
    obtain ⟨_, _, rfl, name, _, ⟨word, rfl⟩, mark, _, rfl, iterable, _, head, body, _, tail, rfl,
      rfl⟩ := parsed
    obtain ⟨t, rfl, later⟩ := ih (.block false body) _ _ tail
    obtain ⟨s, rfl, front⟩ := ih (.expression false iterable) _ _ head
    exact ⟨⟨_, start⟩ :: ⟨_, word⟩ :: ⟨_, mark⟩ :: (s ++ t), by simp,
      .forEach front later⟩
  next name start mark more =>
    subst same
    simp only [Parser.bind_ok, Parser.set_ok, Parser.pure_ok] at parsed
    obtain ⟨_, _, rfl, value, _, inner, rfl, rfl⟩ := parsed
    obtain ⟨s, rfl, spelled⟩ := ih (.expression true value) _ _ inner
    exact ⟨⟨_, start⟩ :: ⟨_, mark⟩ :: s, rfl, .assign spelled⟩
  next other =>
    subst same
    simp only [Parser.bind_ok, Parser.pure_ok] at parsed
    obtain ⟨value, _, inner, rfl, rfl⟩ := parsed
    obtain ⟨s, rfl, spelled⟩ := ih (.expression true value) _ _ inner
    refine ⟨s, rfl, .expressionStatement spelled ?_⟩
    unfold Lookahead.startsAssignment
    split
    next found => exact (other _ _ _ _ found).elim
    next => rfl

theorem sound (fuel : Nat) : Sound fuel := by
  induction fuel with
  | zero =>
    intro phrase tokens rest parsed
    cases phrase
    case function => exact (unexpected_ok.mp parsed.2).elim
    all_goals exact (unexpected_ok.mp parsed).elim
  | succ fuel ih =>
    intro phrase tokens rest parsed
    cases phrase with
    | expression => exact expression_spelled ih parsed
    | operations => exact operations_spelled ih parsed
    | call => exact call_spelled ih parsed
    | suffixes => exact suffixes_spelled ih parsed
    | arguments => exact arguments_spelled ih parsed
    | argumentsTail => exact argumentsTail_spelled ih parsed
    | primary => exact primary_spelled ih parsed
    | parenthesized => exact parenthesized_spelled ih parsed
    | function => exact function_spelled ih parsed.1 parsed.2
    | blockOrExpression => exact blockOrExpression_spelled ih parsed
    | conditional => exact conditional_spelled ih parsed
    | alternative => exact alternative_spelled ih parsed
    | block => exact block_spelled ih parsed
    | statements => exact statements_spelled ih parsed
    | statement => exact statement_spelled ih parsed

end Recognition

end PixelScript
