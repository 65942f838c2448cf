import PixelScript.Proofs.Syntax.Failure

/-! Failures of the judgment are refusals of the parser, with all fuel that the number of
tokens bounds. Together with the completeness of spelling this decides every run: what the
parser answers does not depend on its fuel, and fuel is never what it lacks. -/
namespace PixelScript
open Grammar

namespace Recognition

variable {fuel : Nat} {trailing : Bool} {tokens : List Token} {failure : Unexpected}

theorem expression_refused (broken : Broken fuel (.expression trailing) tokens failure)
    (enough : 8 * tokens.length + 4 ≤ fuel + 1) :
    expression (fuel + 1) trailing tokens = .error failure := by
  simp only [expression, Parser.bind_error]
  cases broken with
  | stops stops => cases stops
  | enters enters failed =>
    cases enters with
    | expressionHead => exact .inl failed
    | expressionTail head =>
      rw [List.length_append] at enough
      exact .inr ⟨_, _, head.complete fuel (by simp only [Phrase.depth]; omega), failed⟩

theorem operations_refused (broken : Broken fuel (.operations trailing left) tokens failure)
    (enough : 8 * tokens.length + 1 ≤ fuel + 1) :
    operations (fuel + 1) trailing left tokens = .error failure := by
  simp only [operations, Parser.bind_error, Parser.get_error, Parser.get_ok, false_or]
  refine ⟨_, _, ⟨rfl, rfl⟩, ?_⟩
  cases broken with
  | stops stops => cases stops
  | enters enters failed =>
    cases enters with
    | operationsHead found =>
      simp only [List.singleton_append, Lookahead.current_cons, found, Parser.bind_error,
        advance_error, advance_ok, List.tail_cons, false_or]
      exact ⟨(), _, rfl, .inl failed⟩
    | operationsTail found head =>
      simp only [List.length_append, List.length_cons] at enough
      simp only [List.cons_append, Lookahead.current_cons, found, Parser.bind_error,
        advance_error, advance_ok, List.tail_cons, false_or]
      exact ⟨(), _, rfl, .inr
        ⟨_, _, head.complete fuel (by simp only [Phrase.depth]; omega), failed⟩⟩

theorem call_refused (broken : Broken fuel (.call trailing) tokens failure)
    (enough : 8 * tokens.length + 3 ≤ fuel + 1) :
    call (fuel + 1) trailing tokens = .error failure := by
  simp only [call, Parser.bind_error]
  cases broken with
  | stops stops => cases stops
  | enters enters failed =>
    cases enters with
    | callHead => exact .inl failed
    | callTail head =>
      rw [List.length_append] at enough
      exact .inr ⟨_, _, head.complete fuel (by simp only [Phrase.depth]; omega), failed⟩

theorem suffixes_refused (broken : Broken fuel (.suffixes trailing value) tokens failure)
    (enough : 8 * tokens.length + 2 ≤ fuel + 1) :
    callSuffixes (fuel + 1) trailing value tokens = .error failure := by
  simp only [callSuffixes, Parser.bind_error, peek_error, peek_ok, false_or]
  refine ⟨_, _, ⟨rfl, rfl⟩, ?_⟩
  cases broken with
  | stops stops =>
    cases stops with
    | method other =>
      simp only [List.singleton_append, Lookahead.currentClass_cons, TokenKind.toClass,
        Parser.bind_error, advance_error, advance_ok, List.tail_cons, expectIdentifier_error,
        false_or]
      exact ⟨(), _, rfl, .inl ⟨other, rfl⟩⟩
  | enters enters failed =>
    cases enters with
    | suffixesCallHead opens =>
      simp only [List.nil_append, opens, Parser.bind_error]
      exact .inl failed
    | suffixesCallTail head =>
      have opens := fun tokens => beq_iff_eq.mp (head.first_class rfl tokens)
      have solid := head.length_pos rfl
      rw [List.length_append] at enough
      simp only [opens, Parser.bind_error]
      exact .inr ⟨_, _, head.complete fuel (by simp only [Phrase.depth]; omega), failed⟩
    | suffixesMethodHead =>
      simp only [List.cons_append, List.nil_append, Lookahead.currentClass_cons, TokenKind.toClass,
        Parser.bind_error, advance_error, advance_ok, List.tail_cons, expectIdentifier_ok, false_or]
      exact ⟨(), _, rfl, .inr ⟨_, _, ⟨_, rfl⟩, .inl failed⟩⟩
    | suffixesMethodTail head =>
      simp only [List.length_append, List.length_cons] at enough
      simp only [List.cons_append, Lookahead.currentClass_cons, TokenKind.toClass,
        Parser.bind_error, advance_error, advance_ok, List.tail_cons, expectIdentifier_ok, false_or]
      exact ⟨(), _, rfl, .inr ⟨_, _, ⟨_, rfl⟩, .inr
        ⟨_, _, head.complete fuel (by simp only [Phrase.depth]; omega), failed⟩⟩⟩
    | suffixesBlock isCall opens =>
      simp only [List.nil_append, opens, isCall, Bool.and_self, if_true, Parser.bind_error]
      exact .inl failed

theorem arguments_refused (broken : Broken fuel .arguments tokens failure) :
    arguments (fuel + 1) tokens = .error failure := by
  simp only [arguments, Parser.bind_error, expect_punctuation_error, expect_punctuation,
    skipNewlines_error, skipNewlines_ok, false_or]
  cases broken with
  | stops stops =>
    cases stops with
    | arguments other => exact .inl ⟨other, rfl⟩
  | enters enters failed =>
    cases enters with
    | arguments newlines next =>
      exact .inr ⟨_, _, rfl, (), _, newlines.dropWhile_append next, failed⟩

theorem argumentsTail_refused (broken : Broken fuel .argumentsTail tokens failure)
    (enough : 8 * tokens.length + 5 ≤ fuel + 1) :
    argumentsTail (fuel + 1) tokens = .error failure := by
  simp only [argumentsTail, Parser.bind_error, peek_error, peek_ok, false_or]
  refine ⟨_, _, ⟨rfl, rfl⟩, ?_⟩
  cases broken with
  | stops stops =>
    cases stops with
    | argumentsClose head newlines next last other =>
      simp only [List.length_append] at enough
      rw [List.append_assoc, if_neg (TokenClass.opensExpression.ne (head.first_class rfl _) rfl)]
      simp only [Parser.bind_error, skipNewlines_error, skipNewlines_ok, peek_error, peek_ok,
        false_or]
      refine .inr ⟨_, _, head.complete fuel (by simp only [Phrase.depth]; omega), (), _,
        newlines.dropWhile_append next, _, _, ⟨rfl, rfl⟩, ?_⟩
      rw [if_neg last]
      simp only [Parser.bind_error, expect_punctuation_error]
      exact .inl ⟨other, trivial⟩
  | enters enters failed =>
    cases enters with
    | argumentsHead opens =>
      rw [List.nil_append, if_neg opens]
      simp only [Parser.bind_error]
      exact .inl failed
    | argumentsTail head newlines newlines' next =>
      simp only [List.length_append, List.length_cons] at enough
      simp only [List.append_assoc, List.cons_append]
      rw [if_neg (TokenClass.opensExpression.ne (head.first_class rfl _) rfl)]
      simp only [Parser.bind_error, skipNewlines_error, skipNewlines_ok, peek_error, peek_ok,
        false_or]
      refine .inr ⟨_, _, head.complete fuel (by simp only [Phrase.depth]; omega), (), _,
        newlines.dropWhile_cons _ _ rfl, _, _, ⟨rfl, rfl⟩, ?_⟩
      rw [if_pos (by rfl)]
      simp only [Parser.bind_error, advance_error, advance_ok, List.tail_cons, skipNewlines_error,
        skipNewlines_ok, false_or]
      exact ⟨(), _, rfl, (), _, newlines'.dropWhile_append next, .inl failed⟩

theorem primary_refused (broken : Broken fuel (.primary trailing) tokens failure) :
    primary (fuel + 1) trailing tokens = .error failure := by
  simp only [primary, Parser.bind_error, Parser.get_error, Parser.get_ok, false_or]
  refine ⟨_, _, ⟨rfl, rfl⟩, ?_⟩
  cases broken with
  | stops stops =>
    cases stops with
    | primary other =>
      rw [List.nil_append]
      split
      case h_10 => exact unexpected_error.mpr rfl
      all_goals simp [TokenKind.toClass, TokenClass.opensExpression] at other
  | enters enters failed =>
    cases enters with
    | primaryConditional opens =>
      obtain ⟨span, more, rfl⟩ := exists_keyword opens
      exact failed
    | primaryBlock opens =>
      obtain ⟨span, more, rfl⟩ := exists_punctuation opens
      simp only [List.nil_append, Parser.bind_error]
      exact .inl failed
    | primaryFunction opens head =>
      obtain ⟨span, more, rfl⟩ := exists_punctuation opens
      simp only [List.nil_append, head, if_true]
      exact failed.2.2
    | primaryParenthesized opens plain =>
      obtain ⟨span, more, rfl⟩ := exists_punctuation opens
      simp only [List.nil_append, plain]
      exact failed

theorem parenthesized_refused (broken : Broken fuel .parenthesized tokens failure)
    (enough : 8 * tokens.length + 1 ≤ fuel + 1) :
    parenthesized (fuel + 1) tokens = .error failure := by
  simp only [parenthesized, Parser.bind_error, expect_punctuation_error, expect_punctuation,
    skipNewlines_error, skipNewlines_ok, false_or]
  cases broken with
  | stops stops =>
    cases stops with
    | parenthesized other => exact .inl ⟨other, rfl⟩
    | parenthesizedClose newlines inner newlines' next other =>
      simp only [List.length_append, List.length_cons] at enough
      simp only [List.cons_append, List.append_assoc]
      refine .inr ⟨_, _, rfl, (), _,
        newlines.dropWhile_append (inner.next_ne_newline rfl rfl _), .inr ⟨_, _,
        inner.complete fuel (by simp only [Phrase.depth]; omega), (), _,
        newlines'.dropWhile_append next, .inl ⟨other, rfl⟩⟩⟩
  | enters enters failed =>
    cases enters with
    | parenthesized newlines next =>
      exact .inr ⟨_, _, rfl, (), _, newlines.dropWhile_append next, .inl failed⟩

theorem function_refused (broken : Broken fuel (.function trailing) tokens failure) :
    Goal.Refuses (fuel + 1) tokens failure (.function trailing) := by
  cases broken with
  | stops stops => cases stops
  | enters enters failed =>
    cases enters with
    | function parameters newlines next =>
      refine ⟨rfl, ?_, ?_⟩
      · rw [List.cons_append, List.append_assoc]
        exact Lookahead.isFunctionHead_iff.mpr ⟨_, _, _, _, _, _, parameters, rfl⟩
      · simp only [List.cons_append, List.append_assoc, function, Parser.bind_error,
          expect_punctuation_error, expect_punctuation, skipNewlines_error, skipNewlines_ok,
          false_or]
        exact .inr ⟨_, _, rfl, .inr ⟨_, _, parameters_ok parameters, .inr ⟨_, _, rfl, .inr
          ⟨_, _, rfl, (), _, newlines.dropWhile_append next, .inl failed⟩⟩⟩⟩

theorem blockOrExpression_refused
    (broken : Broken fuel (.blockOrExpression trailing isFunctionBody) tokens failure) :
    blockOrExpression (fuel + 1) trailing isFunctionBody tokens = .error failure := by
  simp only [blockOrExpression, Parser.bind_error, peek_error, peek_ok, false_or]
  refine ⟨_, _, ⟨rfl, rfl⟩, ?_⟩
  cases broken with
  | stops stops => cases stops
  | enters enters failed =>
    cases enters with
    | braced opens =>
      rw [List.nil_append, if_pos opens]
      exact failed
    | bare unbraced =>
      rw [List.nil_append, if_neg unbraced]
      simp only [Parser.bind_error]
      exact .inl failed

theorem conditional_refused (broken : Broken fuel (.conditional trailing) tokens failure)
    (enough : 8 * tokens.length + 1 ≤ fuel + 1) :
    conditional (fuel + 1) trailing tokens = .error failure := by
  simp only [conditional, Parser.bind_error, expect_keyword_error, expect_keyword,
    skipNewlines_error, skipNewlines_ok, takeElse_error, false_or]
  cases broken with
  | stops stops =>
    cases stops with
    | conditional other => exact .inl ⟨other, rfl⟩
  | enters enters failed =>
    cases enters with
    | condition => exact .inr ⟨_, _, rfl, .inl failed⟩
    | branch condition newlines next =>
      simp only [List.length_append, List.length_cons] at enough
      simp only [List.cons_append, List.append_assoc]
      exact .inr ⟨_, _, rfl, .inr ⟨_, _,
        condition.complete fuel (by simp only [Phrase.depth]; omega), (), _,
        newlines.dropWhile_append next, .inl failed⟩⟩
    | otherwise condition newlines branch newlines' =>
      simp only [List.length_append, List.length_cons] at enough
      simp only [List.cons_append, List.append_assoc, List.nil_append]
      refine .inr ⟨_, _, rfl, .inr ⟨_, _,
        condition.complete fuel (by simp only [Phrase.depth]; omega), (), _,
        newlines.dropWhile_append (branch.next_ne_newline rfl rfl _), .inr ⟨_, _,
        branch.complete fuel (by simp only [Phrase.depth]; omega), true, _,
        takeElse_ok.mpr (.inl ⟨rfl, _, _, newlines', rfl⟩), ?_⟩⟩⟩
      simp only [if_true, Parser.bind_error]
      exact .inl failed

theorem alternative_refused (broken : Broken fuel (.alternative trailing) tokens failure) :
    alternative (fuel + 1) trailing tokens = .error failure := by
  simp only [alternative, Parser.bind_error, peek_error, peek_ok, false_or]
  refine ⟨_, _, ⟨rfl, rfl⟩, ?_⟩
  cases broken with
  | stops stops => cases stops
  | enters enters failed =>
    cases enters with
    | alternativeConditional opens =>
      rw [List.nil_append, if_pos opens]
      simp only [Parser.bind_error]
      exact .inl failed
    | alternative newlines next plain =>
      rw [if_neg plain]
      simp only [Parser.bind_error, skipNewlines_error, skipNewlines_ok, false_or]
      exact ⟨(), _, newlines.dropWhile_append next, failed⟩

theorem block_refused (broken : Broken fuel (.block isFunctionBody) tokens failure)
    (enough : 8 * tokens.length + 1 ≤ fuel + 1) :
    block (fuel + 1) isFunctionBody tokens = .error failure := by
  simp only [block, Parser.bind_error, expect_punctuation_error, expect_punctuation,
    skipNewlines_error, skipNewlines_ok, false_or]
  cases broken with
  | stops stops =>
    cases stops with
    | block other => exact .inl ⟨other, rfl⟩
    | blockClose newlines inner other =>
      simp only [List.length_append, List.length_cons] at enough
      simp only [List.cons_append, List.append_assoc]
      exact .inr ⟨_, _, rfl, (), _, newlines.dropWhile_append inner.statements_next, .inr ⟨_, _,
        inner.complete fuel (by simp only [Phrase.depth]; omega), .inl ⟨other, rfl⟩⟩⟩
  | enters enters failed =>
    cases enters with
    | block newlines next =>
      exact .inr ⟨_, _, rfl, (), _, newlines.dropWhile_append next, .inl failed⟩

theorem statements_refused (broken : Broken fuel (.statements inBlock) tokens failure)
    (enough : 8 * tokens.length + 6 ≤ fuel + 1) :
    statements (fuel + 1) inBlock tokens = .error failure := by
  simp only [statements, Parser.bind_error, peek_error, peek_ok, false_or]
  refine ⟨_, _, ⟨rfl, rfl⟩, ?_⟩
  cases broken with
  | stops stops => cases stops
  | enters enters failed =>
    cases enters with
    | statementsHead goesOn =>
      rw [List.nil_append, if_neg (by simpa [Lookahead.endsStatements] using goesOn)]
      simp only [Parser.bind_error]
      exact .inl failed
    | statementsTail head newlines next =>
      simp only [List.length_append] at enough
      have goesOn := head.goes_on inBlock
      rw [List.append_assoc, if_neg (by simpa [Lookahead.endsStatements] using goesOn _)]
      simp only [Parser.bind_error, skipNewlines_error, skipNewlines_ok, false_or]
      exact .inr ⟨_, _, head.complete fuel (by simp only [Phrase.depth]; omega), (), _,
        newlines.dropWhile_append next, .inl failed⟩

theorem statement_refused (broken : Broken fuel .statement tokens failure)
    (enough : 8 * tokens.length + 5 ≤ fuel + 1) :
    statement (fuel + 1) tokens = .error failure := by
  simp only [statement, Parser.bind_error, Parser.get_error, Parser.get_ok, false_or]
  refine ⟨_, _, ⟨rfl, rfl⟩, ?_⟩
  cases broken with
  | stops stops =>
    cases stops with
    | declareName other =>
      simp only [List.singleton_append, Parser.bind_error, advance_error, advance_ok,
        List.tail_cons, expectIdentifier_error, false_or]
      exact ⟨(), _, rfl, .inl ⟨other, rfl⟩⟩
    | declareMark other =>
      simp only [List.cons_append, List.nil_append, Parser.bind_error, advance_error, advance_ok,
        List.tail_cons, expectIdentifier_ok, expect_punctuation_error, false_or]
      exact ⟨(), _, rfl, .inr ⟨_, _, ⟨_, rfl⟩, .inl ⟨other, rfl⟩⟩⟩
    | forEachName other =>
      simp only [List.singleton_append, Parser.bind_error, advance_error, advance_ok,
        List.tail_cons, expectIdentifier_error, false_or]
      exact ⟨(), _, rfl, .inl ⟨other, rfl⟩⟩
    | forEachWord other =>
      simp only [List.cons_append, List.nil_append, Parser.bind_error, advance_error, advance_ok,
        List.tail_cons, expectIdentifier_ok, expect_keyword_error, false_or]
      exact ⟨(), _, rfl, .inr ⟨_, _, ⟨_, rfl⟩, .inl ⟨other, rfl⟩⟩⟩
  | enters enters failed =>
    cases enters with
    | declare =>
      simp only [List.cons_append, List.nil_append, Parser.bind_error, advance_error, advance_ok,
        List.tail_cons, expectIdentifier_ok, expect_punctuation, false_or]
      exact ⟨(), _, rfl, .inr ⟨_, _, ⟨_, rfl⟩, .inr ⟨_, _, rfl, .inl failed⟩⟩⟩
    | assign =>
      simp only [List.cons_append, List.nil_append, Parser.bind_error, Parser.set_error,
        Parser.set_ok, false_or]
      exact ⟨⟨⟩, _, rfl, .inl failed⟩
    | iterable =>
      simp only [List.cons_append, List.nil_append, Parser.bind_error, advance_error, advance_ok,
        List.tail_cons, expectIdentifier_ok, expect_keyword, false_or]
      exact ⟨(), _, rfl, .inr ⟨_, _, ⟨_, rfl⟩, .inr ⟨_, _, rfl, .inl failed⟩⟩⟩
    | body head =>
      simp only [List.length_append, List.length_cons] at enough
      simp only [List.cons_append, Parser.bind_error, advance_error, advance_ok,
        List.tail_cons, expectIdentifier_ok, expect_keyword, false_or]
      exact ⟨(), _, rfl, .inr ⟨_, _, ⟨_, rfl⟩, .inr ⟨_, _, rfl, .inr ⟨_, _,
        head.complete fuel (by simp only [Phrase.depth]; omega), .inl failed⟩⟩⟩⟩
    | expressionStatement plain noLet noFor =>
      rw [List.nil_append]
      split
      · exact absurd rfl noLet
      · exact absurd rfl noFor
      · simp [Lookahead.startsAssignment] at plain
      · simp only [Parser.bind_error]
        exact .inl failed

theorem refused (broken : Broken fuel goal tokens failure)
    (enough : 8 * tokens.length + goal.depth ≤ fuel + 1) :
    goal.Refuses (fuel + 1) tokens failure := by
  cases goal with
  | expression => exact expression_refused broken enough
  | operations => exact operations_refused broken enough
  | call => exact call_refused broken enough
  | suffixes => exact suffixes_refused broken enough
  | arguments => exact arguments_refused broken
  | argumentsTail => exact argumentsTail_refused broken enough
  | primary => exact primary_refused broken
  | parenthesized => exact parenthesized_refused broken enough
  | function => exact function_refused broken
  | blockOrExpression => exact blockOrExpression_refused broken
  | conditional => exact conditional_refused broken enough
  | alternative => exact alternative_refused broken
  | block => exact block_refused broken enough
  | statements => exact statements_refused broken enough
  | statement => exact statement_refused broken enough

end Recognition

/-- A failure of the judgment is a refusal with all fuel that the tokens bound. -/
theorem Fails.refuses (fails : Fails goal s rest expected)
    (enough : 8 * (s ++ rest).length + goal.depth ≤ fuel) :
    goal.Refuses fuel (s ++ rest) ⟨expected, rest⟩ := by
  induction fails generalizing fuel with
  | @here goal _ _ _ stops =>
    cases fuel with
    | zero => cases goal <;> simp [Goal.depth] at enough
    | succ fuel => exact Recognition.refused (.stops stops) enough
  | @inside goal _ _ _ _ _ enters within ih =>
    cases fuel with
    | zero => cases goal <;> simp [Goal.depth] at enough
    | succ fuel =>
      have nearer := enters.depth_lt
      simp only [List.append_assoc, List.length_append] at enough
      rw [List.append_assoc]
      refine Recognition.refused (.enters enters (ih ?_)) ?_
      · simp only [List.length_append]
        omega
      · simp only [List.length_append]
        omega

/-- The answers of a whole program are those of its statements. -/
theorem Grammar.program_error {tokens : List Token} {failure : Unexpected} :
    Grammar.program fuel tokens = .error failure ↔
      Grammar.statements fuel false (tokens.dropWhile Lookahead.isNewline) = .error failure := by
  simp only [Grammar.program, Parser.bind_error, skipNewlines_error, skipNewlines_ok,
    Parser.pure_error, and_false, exists_false, or_false, false_or]
  constructor
  · rintro ⟨_, _, rfl, failed⟩
    exact failed
  · exact fun failed => ⟨(), _, rfl, failed⟩

/-- What stops a program: newlines, then statements that fail. The answer is the same with
more fuel. -/
theorem Grammar.program_eq_error_iff {tokens rest : List Token}
    (enough : fuelFor tokens ≤ fuel) :
    Grammar.program fuel tokens = .error ⟨expected, rest⟩ ↔
      ∃ n s, Newlines n ∧ tokens = n ++ (s ++ rest) ∧
        Lookahead.currentClass (s ++ rest) ≠ .newline ∧
        Fails (.statements false) s rest expected := by
  simp only [fuelFor] at enough
  rw [Grammar.program_error]
  constructor
  · intro failed
    obtain ⟨n, later, newlines, rfl, skipped, next⟩ := exists_newlines_next tokens
    rw [skipped] at failed
    rw [List.length_append] at enough
    have refused : (Goal.statements false).Refuses fuel later _ := failed
    obtain ⟨s, rfl, fails⟩ :=
      Recognition.fails_of_refuses (by simp only [Goal.depth]; omega) refused
    exact ⟨n, s, newlines, rfl, next, fails⟩
  · rintro ⟨n, s, newlines, rfl, next, fails⟩
    rw [newlines.dropWhile_append next]
    rw [List.length_append] at enough
    exact fails.refuses (by simp only [Goal.depth]; omega)

theorem Program.ofTokens_eq_error_iff {tokens : List Token} {error : SyntaxError} :
    Program.ofTokens tokens = .error error ↔
      ∃ failure, Grammar.program (fuelFor tokens) tokens = .error failure ∧
        error = .ofUnexpected failure := by
  unfold Program.ofTokens
  split
  next parsed => simp [parsed]
  next failure failed => simp [failed, eq_comm]

end PixelScript
