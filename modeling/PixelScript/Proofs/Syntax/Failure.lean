import PixelScript.Proofs.Syntax.Completeness

/-! Failures as a judgment. A run of the parser that fails is a stack of productions, each
of which has taken some tokens and waits for the next one, and the innermost of which
misses a token. `Enters` says which production waits for which, and `Stops` what is missing
at the end. Neither knows any fuel: with fuel that the number of tokens bounds, a failure
of the parser is a failure of this judgment, and the other way round. -/
namespace PixelScript
open Grammar

/-- What the parser sets out to read: a phrase without what it gives. -/
inductive Goal where
  | expression (trailing : Bool)
  | operations (trailing : Bool) (left : Expr)
  | call (trailing : Bool)
  | suffixes (trailing : Bool) (value : Expr)
  | arguments
  | argumentsTail
  | primary (trailing : Bool)
  | parenthesized
  | function (trailing : Bool)
  | blockOrExpression (trailing isFunctionBody : Bool)
  | conditional (trailing : Bool)
  | alternative (trailing : Bool)
  | block (isFunctionBody : Bool)
  | statements (inBlock : Bool)
  | statement

def Phrase.goal : Phrase → Goal
  | expression trailing _ => .expression trailing
  | operations trailing left _ => .operations trailing left
  | call trailing _ => .call trailing
  | suffixes trailing value _ => .suffixes trailing value
  | arguments .. => .arguments
  | argumentsTail .. => .argumentsTail
  | primary trailing _ => .primary trailing
  | parenthesized _ => .parenthesized
  | function trailing _ => .function trailing
  | blockOrExpression trailing isFunctionBody _ => .blockOrExpression trailing isFunctionBody
  | conditional trailing _ => .conditional trailing
  | alternative trailing _ => .alternative trailing
  | block isFunctionBody _ => .block isFunctionBody
  | statements inBlock _ => .statements inBlock
  | statement _ => .statement

/-- `Enters goal s part later`: the goal, read from `s ++ later`, takes `s` and then reads
`part` from `later`. -/
inductive Enters : Goal → List Token → Goal → List Token → Prop
  | expressionHead : Enters (.expression trailing) [] (.call trailing) later
  | expressionTail (head : Spells (.call trailing first) s later) :
      Enters (.expression trailing) s (.operations trailing first) later
  | operationsHead (found : token.kind.operator? = some operator) :
      Enters (.operations trailing left) [token] (.call trailing) later
  | operationsTail (found : token.kind.operator? = some operator)
      (head : Spells (.call trailing right) s later) :
      Enters (.operations trailing left) (token :: s)
        (.operations trailing (.operation operator left right (left.span.merge right.span))) later
  | callHead : Enters (.call trailing) [] (.primary trailing) later
  | callTail (head : Spells (.primary trailing first) s later) :
      Enters (.call trailing) s (.suffixes trailing first) later
  | suffixesCallHead (opens : Lookahead.currentClass later = .punctuation .leftParen) :
      Enters (.suffixes trailing value) [] .arguments later
  | suffixesCallTail (head : Spells (.arguments args close) s later) :
      Enters (.suffixes trailing value) s
        (.suffixes trailing (.call value args (value.span.merge close))) later
  | suffixesMethodHead :
      Enters (.suffixes trailing value) [⟨.punctuation .dot, dot⟩, ⟨.identifier method, name⟩]
        .arguments later
  | suffixesMethodTail (head : Spells (.arguments args close) s later) :
      Enters (.suffixes trailing value)
        (⟨.punctuation .dot, dot⟩ :: ⟨.identifier method, name⟩ :: s)
        (.suffixes trailing (.methodCall value method args (value.span.merge close))) later
  | suffixesBlock (isCall : value.isCall = true)
      (opens : Lookahead.currentClass later = .punctuation .leftBrace) :
      Enters (.suffixes true value) [] (.block true) later
  | arguments (newlines : Newlines n) (next : Lookahead.currentClass later ≠ .newline) :
      Enters .arguments (⟨.punctuation .leftParen, start⟩ :: n) .argumentsTail later
  | argumentsHead (opens : Lookahead.currentClass later ≠ .punctuation .rightParen) :
      Enters .argumentsTail [] (.expression true) later
  | argumentsTail
      (head : Spells (.expression true first) s
        (n ++ ⟨.punctuation .comma, comma⟩ :: (m ++ later)))
      (newlines : Newlines n) (newlines' : Newlines m)
      (next : Lookahead.currentClass later ≠ .newline) :
      Enters .argumentsTail (s ++ (n ++ ⟨.punctuation .comma, comma⟩ :: m)) .argumentsTail later
  | primaryConditional (opens : Lookahead.currentClass later = .keyword .ifWord) :
      Enters (.primary trailing) [] (.conditional trailing) later
  | primaryBlock (opens : Lookahead.currentClass later = .punctuation .leftBrace) :
      Enters (.primary trailing) [] (.block false) later
  | primaryFunction (opens : Lookahead.currentClass later = .punctuation .leftParen)
      (head : Lookahead.isFunctionHead later = true) :
      Enters (.primary trailing) [] (.function trailing) later
  | primaryParenthesized (opens : Lookahead.currentClass later = .punctuation .leftParen)
      (plain : Lookahead.isFunctionHead later = false) :
      Enters (.primary trailing) [] .parenthesized later
  | parenthesized (newlines : Newlines n) (next : Lookahead.currentClass later ≠ .newline) :
      Enters .parenthesized (⟨.punctuation .leftParen, start⟩ :: n) (.expression true) later
  | function (parameters : Parameters params p) (newlines : Newlines n)
      (next : Lookahead.currentClass later ≠ .newline) :
      Enters (.function trailing)
        (⟨.punctuation .leftParen, start⟩ :: (p ++ ⟨.punctuation .rightParen, close⟩ ::
          ⟨.punctuation .arrow, arrow⟩ :: n)) (.blockOrExpression trailing true) later
  | braced (opens : Lookahead.currentClass later = .punctuation .leftBrace) :
      Enters (.blockOrExpression trailing isFunctionBody) [] (.block isFunctionBody) later
  | bare (unbraced : Lookahead.currentClass later ≠ .punctuation .leftBrace) :
      Enters (.blockOrExpression trailing isFunctionBody) [] (.expression trailing) later
  | condition : Enters (.conditional trailing) [⟨.keyword .ifWord, start⟩] (.expression false) later
  | branch (condition : Spells (.expression false test) s (n ++ later)) (newlines : Newlines n)
      (next : Lookahead.currentClass later ≠ .newline) :
      Enters (.conditional trailing) (⟨.keyword .ifWord, start⟩ :: (s ++ n))
        (.blockOrExpression trailing false) later
  | otherwise
      (condition : Spells (.expression false test) s
        (n ++ (t ++ (m ++ ⟨.keyword .elseWord, word⟩ :: later))))
      (newlines : Newlines n)
      (branch : Spells (.blockOrExpression trailing false thenBranch) t
        (m ++ ⟨.keyword .elseWord, word⟩ :: later))
      (newlines' : Newlines m) :
      Enters (.conditional trailing)
        (⟨.keyword .ifWord, start⟩ :: (s ++ (n ++ (t ++ (m ++ [⟨.keyword .elseWord, word⟩])))))
        (.alternative trailing) later
  | alternativeConditional (opens : Lookahead.currentClass later = .keyword .ifWord) :
      Enters (.alternative trailing) [] (.conditional trailing) later
  | alternative (newlines : Newlines n) (next : Lookahead.currentClass later ≠ .newline)
      (plain : Lookahead.currentClass (n ++ later) ≠ .keyword .ifWord) :
      Enters (.alternative trailing) n (.blockOrExpression trailing false) later
  | block (newlines : Newlines n) (next : Lookahead.currentClass later ≠ .newline) :
      Enters (.block isFunctionBody) (⟨.punctuation .leftBrace, start⟩ :: n) (.statements true)
        later
  | statementsHead (goesOn : Lookahead.endsStatements inBlock later = false) :
      Enters (.statements inBlock) [] .statement later
  | statementsTail (head : Spells (.statement first) s (n ++ later)) (newlines : Newlines n)
      (next : Lookahead.currentClass later ≠ .newline) :
      Enters (.statements inBlock) (s ++ n) (.statements inBlock) later
  | declare :
      Enters .statement [⟨.keyword .letWord, start⟩, ⟨.identifier name, word⟩,
        ⟨.punctuation .assign, mark⟩] (.expression true) later
  | assign :
      Enters .statement [⟨.identifier name, start⟩, ⟨.punctuation .assign, mark⟩]
        (.expression true) later
  | iterable :
      Enters .statement [⟨.keyword .forWord, start⟩, ⟨.identifier binding, word⟩,
        ⟨.keyword .inWord, mark⟩] (.expression false) later
  | body (head : Spells (.expression false iterable) s later) :
      Enters .statement (⟨.keyword .forWord, start⟩ :: ⟨.identifier binding, word⟩ ::
        ⟨.keyword .inWord, mark⟩ :: s) (.block false) later
  | expressionStatement (plain : Lookahead.startsAssignment later = false)
      (noLet : Lookahead.currentClass later ≠ .keyword .letWord)
      (noFor : Lookahead.currentClass later ≠ .keyword .forWord) :
      Enters .statement [] (.expression true) later

/-- `Stops goal s rest expected`: the goal takes `s` and then finds `rest`, which does not
start with what is expected. -/
inductive Stops : Goal → List Token → List Token → String → Prop
  | method (other : Lookahead.currentClass rest ≠ .identifier) :
      Stops (.suffixes trailing value) [⟨.punctuation .dot, dot⟩] rest TokenClass.identifier.name
  | arguments (other : Lookahead.currentClass rest ≠ .punctuation .leftParen) :
      Stops .arguments [] rest (TokenClass.punctuation .leftParen).name
  | argumentsClose (head : Spells (.expression true first) s (n ++ rest)) (newlines : Newlines n)
      (next : Lookahead.currentClass rest ≠ .newline)
      (last : Lookahead.currentClass rest ≠ .punctuation .comma)
      (other : Lookahead.currentClass rest ≠ .punctuation .rightParen) :
      Stops .argumentsTail (s ++ n) rest (TokenClass.punctuation .rightParen).name
  | primary (other : (Lookahead.currentClass rest).opensExpression = false) :
      Stops (.primary trailing) [] rest "expression"
  | parenthesized (other : Lookahead.currentClass rest ≠ .punctuation .leftParen) :
      Stops .parenthesized [] rest (TokenClass.punctuation .leftParen).name
  | parenthesizedClose (newlines : Newlines n)
      (inner : Spells (.expression true value) s (m ++ rest)) (newlines' : Newlines m)
      (next : Lookahead.currentClass rest ≠ .newline)
      (other : Lookahead.currentClass rest ≠ .punctuation .rightParen) :
      Stops .parenthesized (⟨.punctuation .leftParen, start⟩ :: (n ++ (s ++ m))) rest
        (TokenClass.punctuation .rightParen).name
  | conditional (other : Lookahead.currentClass rest ≠ .keyword .ifWord) :
      Stops (.conditional trailing) [] rest (TokenClass.keyword .ifWord).name
  | block (other : Lookahead.currentClass rest ≠ .punctuation .leftBrace) :
      Stops (.block isFunctionBody) [] rest (TokenClass.punctuation .leftBrace).name
  | blockClose (newlines : Newlines n) (inner : Spells (.statements true body) s rest)
      (other : Lookahead.currentClass rest ≠ .punctuation .rightBrace) :
      Stops (.block isFunctionBody) (⟨.punctuation .leftBrace, start⟩ :: (n ++ s)) rest
        (TokenClass.punctuation .rightBrace).name
  | declareName (other : Lookahead.currentClass rest ≠ .identifier) :
      Stops .statement [⟨.keyword .letWord, start⟩] rest TokenClass.identifier.name
  | declareMark (other : Lookahead.currentClass rest ≠ .punctuation .assign) :
      Stops .statement [⟨.keyword .letWord, start⟩, ⟨.identifier name, word⟩] rest
        (TokenClass.punctuation .assign).name
  | forEachName (other : Lookahead.currentClass rest ≠ .identifier) :
      Stops .statement [⟨.keyword .forWord, start⟩] rest TokenClass.identifier.name
  | forEachWord (other : Lookahead.currentClass rest ≠ .keyword .inWord) :
      Stops .statement [⟨.keyword .forWord, start⟩, ⟨.identifier binding, word⟩] rest
        (TokenClass.keyword .inWord).name

/-- `Fails goal s rest expected`: the goal takes `s`, by itself or by parts that it enters,
and then the innermost part misses what is expected in front of `rest`. -/
inductive Fails : Goal → List Token → List Token → String → Prop
  | here (stops : Stops goal s rest expected) : Fails goal s rest expected
  | inside (enters : Enters goal s part (t ++ rest)) (within : Fails part t rest expected) :
      Fails goal (s ++ t) rest expected

namespace Goal

/-- The parser refuses the goal. A function is only tried at a parenthesis where the
lookahead has found its head. -/
def Refuses (fuel : Nat) (tokens : List Token) (failure : Unexpected) : Goal → Prop
  | expression trailing => Grammar.expression fuel trailing tokens = .error failure
  | operations trailing left => Grammar.operations fuel trailing left tokens = .error failure
  | call trailing => Grammar.call fuel trailing tokens = .error failure
  | suffixes trailing value => callSuffixes fuel trailing value tokens = .error failure
  | arguments => Grammar.arguments fuel tokens = .error failure
  | argumentsTail => Grammar.argumentsTail fuel tokens = .error failure
  | primary trailing => Grammar.primary fuel trailing tokens = .error failure
  | parenthesized => Grammar.parenthesized fuel tokens = .error failure
  | function trailing => Lookahead.currentClass tokens = .punctuation .leftParen ∧
      Lookahead.isFunctionHead tokens = true ∧
      Grammar.function fuel trailing tokens = .error failure
  | blockOrExpression trailing isFunctionBody =>
    Grammar.blockOrExpression fuel trailing isFunctionBody tokens = .error failure
  | conditional trailing => Grammar.conditional fuel trailing tokens = .error failure
  | alternative trailing => Grammar.alternative fuel trailing tokens = .error failure
  | block isFunctionBody => Grammar.block fuel isFunctionBody tokens = .error failure
  | statements inBlock => Grammar.statements fuel inBlock tokens = .error failure
  | statement => Grammar.statement fuel tokens = .error failure

/-- How deep the parser goes from a goal before it takes a token or fails. -/
def depth : Goal → Nat
  | operations .. | arguments | parenthesized | function _ | conditional _ | block _ => 1
  | primary _ | suffixes .. => 2
  | call _ => 3
  | expression _ => 4
  | argumentsTail | blockOrExpression .. | statement => 5
  | alternative _ | statements _ => 6

end Goal

/-- What a goal enters is nearer to an end: it comes after a token, or lies deeper. -/
theorem Enters.depth_lt (enters : Enters goal s part later) :
    part.depth < 8 * s.length + goal.depth := by
  cases enters with
  | expressionTail head | callTail head | suffixesCallTail head =>
    have solid := head.length_pos rfl
    simp only [Goal.depth]
    omega
  | argumentsTail head | statementsTail head =>
    have solid := head.length_pos rfl
    simp only [Goal.depth, List.length_append]
    omega
  | _ =>
    simp only [Goal.depth, List.length_cons, List.length_append, List.length_nil]
    omega

variable {failure : Unexpected}

/-- Sequencing of parsers, read off a failure. -/
theorem Parser.bind_error {α β : Type} {parser : Parser α} {next : α → Parser β}
    {tokens : List Token} :
    (parser >>= next) tokens = .error failure ↔ parser tokens = .error failure ∨
      ∃ value middle, parser tokens = .ok (value, middle) ∧
        next value middle = .error failure := by
  simp only [bind, StateT.bind, Except.bind]
  cases parser tokens with
  | error other => simp
  | ok pair =>
    obtain ⟨value, middle⟩ := pair
    constructor
    · intro failed
      exact .inr ⟨value, middle, rfl, failed⟩
    · rintro (absurd | ⟨_, _, same, failed⟩)
      · cases absurd
      · cases same
        exact failed

theorem Parser.pure_error {α : Type} {value : α} {tokens : List Token} :
    (pure value : Parser α) tokens = .error failure ↔ False := by
  simp [pure, StateT.pure, Except.pure]

theorem Parser.get_error {tokens : List Token} :
    (get : Parser (List Token)) tokens = .error failure ↔ False := by
  simp [get, getThe, MonadStateOf.get, StateT.get, pure, Except.pure]

theorem Parser.set_error {tokens new : List Token} :
    (set new : Parser PUnit) tokens = .error failure ↔ False := by
  simp [set, StateT.set, pure, Except.pure]

namespace Grammar

theorem unexpected_error {α : Type} {expected : String} {tokens : List Token} :
    (unexpected expected : Parser α) tokens = .error failure ↔ failure = ⟨expected, tokens⟩ := by
  simp [unexpected, eq_comm]

theorem peek_error : peek tokens = .error failure ↔ False := by
  simp [peek]

theorem advance_error : advance tokens = .error failure ↔ False := by
  simp [advance]

theorem skipNewlines_error : skipNewlines tokens = .error failure ↔ False := by
  simp [skipNewlines]

theorem takeElse_error : takeElse tokens = .error failure ↔ False := by
  unfold takeElse
  split <;> simp

theorem expect_error (token : expected ≠ .endOfInput) :
    expect expected tokens = .error failure ↔
      Lookahead.currentClass tokens ≠ expected ∧ failure = ⟨expected.name, tokens⟩ := by
  cases tokens with
  | nil =>
    simp only [expect, Except.error.injEq, Lookahead.currentClass_nil]
    exact ⟨fun same => ⟨token.symm, same.symm⟩, fun found => found.2.symm⟩
  | cons token more =>
    simp only [expect, Lookahead.currentClass_cons]
    split
    next same => simp [same]
    next other => simp [other, eq_comm]

theorem expect_punctuation_error : expect (.punctuation mark) tokens = .error failure ↔
    Lookahead.currentClass tokens ≠ .punctuation mark ∧
      failure = ⟨(TokenClass.punctuation mark).name, tokens⟩ :=
  expect_error (by simp)

theorem expect_keyword_error : expect (.keyword word) tokens = .error failure ↔
    Lookahead.currentClass tokens ≠ .keyword word ∧
      failure = ⟨(TokenClass.keyword word).name, tokens⟩ :=
  expect_error (by simp)

theorem expectIdentifier_error : expectIdentifier tokens = .error failure ↔
    Lookahead.currentClass tokens ≠ .identifier ∧
      failure = ⟨TokenClass.identifier.name, tokens⟩ := by
  unfold expectIdentifier
  split
  next => simp [TokenKind.toClass]
  next other =>
    have named : Lookahead.currentClass tokens ≠ .identifier := by
      intro same
      obtain ⟨kind, span, rest, class', rfl⟩ := exists_of_currentClass same (by simp)
      cases kind <;> simp [TokenKind.toClass] at class' other
    simp [named, eq_comm]

end Grammar

/-- Skipping newlines stops in front of another token. -/
theorem exists_newlines_next (tokens : List Token) :
    ∃ n later, Newlines n ∧ tokens = n ++ later ∧
      tokens.dropWhile Lookahead.isNewline = later ∧ Lookahead.currentClass later ≠ .newline := by
  obtain ⟨n, newlines, split⟩ := exists_newlines tokens
  refine ⟨n, _, newlines, split, rfl, ?_⟩
  cases dropped : tokens.dropWhile Lookahead.isNewline with
  | nil => simp
  | cons token more =>
    have other := List.head?_dropWhile_not Lookahead.isNewline tokens
    simpa [dropped, Lookahead.isNewline] using other

namespace Recognition

/-- How a goal is refused: a token is missing, or the goal enters a part that is refused. -/
inductive Broken (fuel : Nat) : Goal → List Token → Unexpected → Prop
  | stops (stops : Stops goal s rest expected) : Broken fuel goal (s ++ rest) ⟨expected, rest⟩
  | enters {failure : Unexpected} (enters : Enters goal s part later)
      (failed : part.Refuses fuel later failure) : Broken fuel goal (s ++ later) failure

variable {fuel : Nat} {trailing : Bool} {tokens : List Token}

theorem expression_broken (failed : expression (fuel + 1) trailing tokens = .error failure) :
    Broken fuel (.expression trailing) tokens failure := by
  simp only [expression, Parser.bind_error] at failed
  obtain failed | ⟨first, middle, head, failed⟩ := failed
  · exact .enters .expressionHead failed
  · obtain ⟨s, rfl, front⟩ := sound _ (.call trailing first) _ _ head
    exact .enters (.expressionTail front) failed

theorem operations_broken
    (failed : operations (fuel + 1) trailing left tokens = .error failure) :
    Broken fuel (.operations trailing left) tokens failure := by
  simp only [operations, Parser.bind_error, Parser.get_error, Parser.get_ok, false_or] at failed
  obtain ⟨_, _, ⟨rfl, rfl⟩, failed⟩ := failed
  generalize found : (Lookahead.current tokens).kind.operator? = operator? at failed
  split at failed
  next operator =>
    cases tokens with
    | nil =>
      simp [Lookahead.current, Lookahead.tokenAt, Token.pastEnd, TokenKind.operator?] at found
    | cons token more =>
      simp only [Parser.bind_error, advance_error, advance_ok, List.tail_cons, false_or] at failed
      obtain ⟨_, _, rfl, failed | ⟨right, middle, head, failed⟩⟩ := failed
      · exact .enters (.operationsHead found) failed
      · obtain ⟨s, rfl, front⟩ := sound _ (.call trailing right) _ _ head
        exact .enters (.operationsTail found front) failed
  next => exact (Parser.pure_error.mp failed).elim

theorem call_broken (failed : call (fuel + 1) trailing tokens = .error failure) :
    Broken fuel (.call trailing) tokens failure := by
  simp only [call, Parser.bind_error] at failed
  obtain failed | ⟨first, middle, head, failed⟩ := failed
  · exact .enters .callHead failed
  · obtain ⟨s, rfl, front⟩ := sound _ (.primary trailing first) _ _ head
    exact .enters (.callTail front) failed

theorem suffixes_broken
    (failed : callSuffixes (fuel + 1) trailing value tokens = .error failure) :
    Broken fuel (.suffixes trailing value) tokens failure := by
  simp only [callSuffixes, Parser.bind_error, peek_error, peek_ok, false_or] at failed
  obtain ⟨_, _, ⟨rfl, rfl⟩, failed⟩ := failed
  generalize next : Lookahead.currentClass tokens = found at failed
  split at failed
  next =>
    simp only [Parser.bind_error] at failed
    obtain failed | ⟨⟨args, close⟩, middle, head, failed⟩ := failed
    · exact .enters (.suffixesCallHead next) failed
    · obtain ⟨s, rfl, front⟩ := sound _ (.arguments args close) _ _ head
      exact .enters (.suffixesCallTail front) failed
  next =>
    obtain ⟨dot, more, rfl⟩ := exists_punctuation next
    simp only [Parser.bind_error, advance_error, advance_ok, List.tail_cons, false_or,
      expectIdentifier_error, expectIdentifier_ok] at failed
    obtain ⟨_, _, rfl, ⟨other, rfl⟩ | ⟨method, _, ⟨name, rfl⟩, failed⟩⟩ := failed
    · exact .stops (.method other)
    · obtain failed | ⟨⟨args, close⟩, middle, head, failed⟩ := failed
      · exact .enters .suffixesMethodHead failed
      · obtain ⟨s, rfl, front⟩ := sound _ (.arguments args close) _ _ head
        exact .enters (.suffixesMethodTail front) failed
  next =>
    split at failed
    next taken =>
      simp only [Bool.and_eq_true] at taken
      obtain ⟨isCall, rfl⟩ := taken
      simp only [Parser.bind_error, Parser.pure_error, and_false, exists_false, or_false] at failed
      exact .enters (.suffixesBlock isCall next) failed
    next => exact (Parser.pure_error.mp failed).elim
  next => exact (Parser.pure_error.mp failed).elim

theorem arguments_broken (failed : arguments (fuel + 1) tokens = .error failure) :
    Broken fuel .arguments tokens failure := by
  simp only [arguments, Parser.bind_error, expect_punctuation_error, expect_punctuation,
    skipNewlines_error, skipNewlines_ok, false_or] at failed
  obtain ⟨other, rfl⟩ | ⟨start, after, rfl, _, _, rfl, failed⟩ := failed
  · exact .stops (.arguments other)
  · obtain ⟨n, later, newlines, rfl, skipped, next⟩ := exists_newlines_next after
    rw [skipped] at failed
    exact .enters (.arguments newlines next) failed

theorem argumentsTail_broken (failed : argumentsTail (fuel + 1) tokens = .error failure) :
    Broken fuel .argumentsTail tokens failure := by
  simp only [argumentsTail, Parser.bind_error, peek_error, peek_ok, false_or] at failed
  obtain ⟨_, _, ⟨rfl, rfl⟩, failed⟩ := failed
  split at failed
  next closed =>
    simp only [Parser.bind_error, expect_punctuation_error, Parser.pure_error, and_false,
      exists_false, or_false] at failed
    exact absurd closed failed.1
  next opens =>
    simp only [Parser.bind_error, skipNewlines_error, skipNewlines_ok, peek_error, peek_ok,
      false_or] at failed
    obtain failed | ⟨first, after, head, _, _, skipped, _, _, ⟨rfl, rfl⟩, failed⟩ := failed
    · exact .enters (.argumentsHead opens) failed
    · obtain ⟨n, later, newlines, rfl, skipped', next⟩ := exists_newlines_next after
      rw [skipped'] at skipped
      subst skipped
      obtain ⟨s, rfl, front⟩ := sound _ (.expression true first) _ _ head
      split at failed
      next comma =>
        obtain ⟨span, more, rfl⟩ := exists_punctuation comma
        simp only [Parser.bind_error, advance_error, advance_ok, skipNewlines_error,
          skipNewlines_ok, List.tail_cons, Parser.pure_error, and_false, exists_false, or_false,
          false_or] at failed
        obtain ⟨_, _, rfl, _, _, skipped, failed⟩ := failed
        obtain ⟨m, later, newlines', rfl, skipped', next⟩ := exists_newlines_next more
        rw [skipped'] at skipped
        subst skipped
        have whole := Broken.enters (.argumentsTail front newlines newlines' next) failed
        simpa using whole
      next last =>
        simp only [Parser.bind_error, expect_punctuation_error, Parser.pure_error, and_false,
          exists_false, or_false] at failed
        obtain ⟨other, rfl⟩ := failed
        have whole : Broken fuel .argumentsTail _ _ :=
          .stops (.argumentsClose front newlines next last other)
        simpa using whole

theorem primary_broken (failed : primary (fuel + 1) trailing tokens = .error failure) :
    Broken fuel (.primary trailing) tokens failure := by
  simp only [primary, Parser.bind_error, Parser.get_error, Parser.get_ok, false_or] at failed
  obtain ⟨found, _, ⟨rfl, rfl⟩, failed⟩ := failed
  generalize same : tokens = found at failed
  split at failed
  case h_1 | h_2 | h_3 | h_4 | h_5 | h_6 =>
    simp only [Parser.bind_error, advance_error, Parser.pure_error, and_false, exists_false,
      or_false] at failed
  next =>
    subst same
    exact .enters (.primaryConditional rfl) failed
  next =>
    subst same
    simp only [Parser.bind_error, Parser.pure_error, and_false, exists_false, or_false] at failed
    exact .enters (.primaryBlock rfl) failed
  next span more =>
    subst same
    split at failed
    next head => exact .enters (.primaryFunction rfl head) ⟨rfl, head, failed⟩
    next plain =>
      exact .enters (.primaryParenthesized rfl (Bool.eq_false_iff.mpr plain)) failed
  next noNumber noString noTrue noFalse noNull noName noIf noBrace noParen =>
    subst same
    obtain rfl := unexpected_error.mp failed
    refine .stops (.primary ?_)
    -- every token that opens an expression has been tried
    cases tokens with
    | nil => rfl
    | cons token more =>
      obtain ⟨kind, span⟩ := token
      cases kind with
      | number => exact (noNumber _ _ _ rfl).elim
      | string => exact (noString _ _ _ rfl).elim
      | identifier => exact (noName _ _ _ rfl).elim
      | keyword word =>
        cases word with
        | trueWord => exact (noTrue _ _ rfl).elim
        | falseWord => exact (noFalse _ _ rfl).elim
        | nullWord => exact (noNull _ _ rfl).elim
        | ifWord => exact (noIf _ _ rfl).elim
        | _ => rfl
      | punctuation mark =>
        cases mark with
        | leftBrace => exact (noBrace _ _ rfl).elim
        | leftParen => exact (noParen _ _ rfl).elim
        | _ => rfl
      | newline | endOfInput => rfl

theorem parenthesized_broken (failed : parenthesized (fuel + 1) tokens = .error failure) :
    Broken fuel .parenthesized tokens failure := by
  simp only [parenthesized, Parser.bind_error, expect_punctuation_error, expect_punctuation,
    skipNewlines_error, skipNewlines_ok, Parser.pure_error, and_false, exists_false, or_false,
    false_or] at failed
  obtain ⟨other, rfl⟩ | ⟨start, after, rfl, _, _, skipped, failed⟩ := failed
  · exact .stops (.parenthesized other)
  · obtain ⟨n, later, newlines, rfl, skipped', next⟩ := exists_newlines_next after
    rw [skipped'] at skipped
    subst skipped
    obtain failed | ⟨value, behind, middle, _, _, skipped, other, rfl⟩ := failed
    · exact .enters (.parenthesized newlines next) failed
    · obtain ⟨m, later, newlines', rfl, skipped', closing⟩ := exists_newlines_next behind
      rw [skipped'] at skipped
      subst skipped
      obtain ⟨s, rfl, spelled⟩ := sound _ (.expression true value) _ _ middle
      have stops : Stops .parenthesized (⟨_, start⟩ :: (n ++ (s ++ m))) later _ :=
        .parenthesizedClose newlines spelled newlines' closing other
      have whole : Broken fuel .parenthesized _ _ := .stops stops
      simpa using whole

theorem function_broken (opens : Lookahead.currentClass tokens = .punctuation .leftParen)
    (head : Lookahead.isFunctionHead tokens = true)
    (failed : function (fuel + 1) trailing tokens = .error failure) :
    Broken fuel (.function trailing) tokens failure := by
  obtain ⟨start, more, rfl⟩ := exists_punctuation opens
  obtain ⟨_, params, p, close, arrow, after, parameters, same⟩ :=
    Lookahead.isFunctionHead_iff.mp head
  cases same
  obtain ⟨n, later, newlines, rfl, skipped, next⟩ := exists_newlines_next after
  -- the head has been looked at, so that only the body can be refused
  simp only [function, Parser.bind_error, expect_punctuation_error, expect_punctuation,
    skipNewlines_error, skipNewlines_ok, Parser.pure_error, and_false, exists_false, or_false,
    false_or] at failed
  obtain ⟨other, _⟩ | ⟨_, _, same, failed⟩ := failed
  · exact absurd rfl other
  cases same
  rw [parameters_ok parameters] at failed
  obtain absurd | ⟨_, _, same, failed⟩ := failed
  · contradiction
  cases same
  obtain ⟨other, _⟩ | ⟨_, _, same, failed⟩ := failed
  · exact absurd rfl other
  cases same
  obtain ⟨other, _⟩ | ⟨_, _, same, _, _, skipped', failed⟩ := failed
  · exact absurd rfl other
  cases same
  rw [skipped] at skipped'
  subst skipped'
  have enters : Enters (.function trailing) (⟨_, start⟩ :: (p ++ ⟨_, close⟩ :: ⟨_, arrow⟩ :: n)) _
      later := .function parameters newlines next
  simpa using Broken.enters enters failed

theorem blockOrExpression_broken
    (failed : blockOrExpression (fuel + 1) trailing isFunctionBody tokens = .error failure) :
    Broken fuel (.blockOrExpression trailing isFunctionBody) tokens failure := by
  simp only [blockOrExpression, Parser.bind_error, peek_error, peek_ok, false_or] at failed
  obtain ⟨_, _, ⟨rfl, rfl⟩, failed⟩ := failed
  split at failed
  next opens => exact .enters (.braced opens) failed
  next unbraced =>
    simp only [Parser.bind_error, Parser.pure_error, and_false, exists_false, or_false] at failed
    exact .enters (.bare unbraced) failed

theorem conditional_broken (failed : conditional (fuel + 1) trailing tokens = .error failure) :
    Broken fuel (.conditional trailing) tokens failure := by
  simp only [conditional, Parser.bind_error, expect_keyword_error, expect_keyword,
    skipNewlines_error, skipNewlines_ok, takeElse_error, false_or] at failed
  obtain ⟨other, rfl⟩ | ⟨start, _, rfl, failed | ⟨test, after, condition, _, _, skipped, failed⟩⟩ :=
    failed
  · exact .stops (.conditional other)
  · exact .enters .condition failed
  · obtain ⟨n, later, newlines, rfl, skipped', next⟩ := exists_newlines_next after
    rw [skipped'] at skipped
    subst skipped
    obtain ⟨s, rfl, conditionSpelled⟩ := sound _ (.expression false test) _ _ condition
    obtain failed | ⟨thenBranch, behind, branch, found, _, taken, failed⟩ := failed
    · have enters : Enters (.conditional trailing) (⟨_, start⟩ :: (s ++ n)) _ later :=
        .branch conditionSpelled newlines next
      simpa using Broken.enters enters failed
    · obtain ⟨t, rfl, branchSpelled⟩ :=
        sound _ (.blockOrExpression trailing false thenBranch) _ _ branch
      obtain ⟨rfl, m, word, newlines', rfl⟩ | ⟨rfl, _, rfl⟩ := takeElse_ok.mp taken
      · simp only [if_true, Parser.bind_error, Parser.pure_error, and_false, exists_false,
          or_false] at failed
        have enters : Enters (.conditional trailing)
            (⟨_, start⟩ :: (s ++ (n ++ (t ++ (m ++ [⟨_, word⟩]))))) _ _ :=
          .otherwise conditionSpelled newlines branchSpelled newlines'
        simpa using Broken.enters enters failed
      · simp only [Bool.false_eq_true, if_false, Parser.pure_error] at failed

theorem alternative_broken (failed : alternative (fuel + 1) trailing tokens = .error failure) :
    Broken fuel (.alternative trailing) tokens failure := by
  simp only [alternative, Parser.bind_error, peek_error, peek_ok, false_or] at failed
  obtain ⟨_, _, ⟨rfl, rfl⟩, failed⟩ := failed
  split at failed
  next opens =>
    simp only [Parser.bind_error, Parser.pure_error, and_false, exists_false, or_false] at failed
    exact .enters (.alternativeConditional opens) failed
  next plain =>
    simp only [Parser.bind_error, skipNewlines_error, skipNewlines_ok, false_or] at failed
    obtain ⟨_, _, skipped, failed⟩ := failed
    obtain ⟨n, later, newlines, rfl, skipped', next⟩ := exists_newlines_next tokens
    rw [skipped'] at skipped
    subst skipped
    exact .enters (.alternative newlines next plain) failed

theorem block_broken (failed : block (fuel + 1) isFunctionBody tokens = .error failure) :
    Broken fuel (.block isFunctionBody) tokens failure := by
  simp only [block, Parser.bind_error, expect_punctuation_error, expect_punctuation,
    skipNewlines_error, skipNewlines_ok, Parser.pure_error, and_false, exists_false, or_false,
    false_or] at failed
  obtain ⟨other, rfl⟩ | ⟨start, after, rfl, _, _, skipped, failed⟩ := failed
  · exact .stops (.block other)
  · obtain ⟨n, later, newlines, rfl, skipped', next⟩ := exists_newlines_next after
    rw [skipped'] at skipped
    subst skipped
    obtain failed | ⟨body, _, inner, other, rfl⟩ := failed
    · exact .enters (.block newlines next) failed
    · obtain ⟨s, rfl, spelled⟩ := sound _ (.statements true body) _ _ inner
      have stops : Stops (.block isFunctionBody) (⟨_, start⟩ :: (n ++ s)) _ _ :=
        .blockClose newlines spelled other
      have whole : Broken fuel (.block isFunctionBody) _ _ := .stops stops
      simpa using whole

theorem statements_broken (failed : statements (fuel + 1) inBlock tokens = .error failure) :
    Broken fuel (.statements inBlock) tokens failure := by
  simp only [statements, Parser.bind_error, peek_error, peek_ok, false_or] at failed
  obtain ⟨_, _, ⟨rfl, rfl⟩, failed⟩ := failed
  split at failed
  next => exact (Parser.pure_error.mp failed).elim
  next goesOn =>
    simp only [Parser.bind_error, skipNewlines_error, skipNewlines_ok, Parser.pure_error, and_false,
      exists_false, or_false, false_or] at failed
    obtain failed | ⟨first, after, head, _, _, skipped, failed⟩ := failed
    · exact .enters (.statementsHead (by simpa [Lookahead.endsStatements] using goesOn)) failed
    · obtain ⟨n, later, newlines, rfl, skipped', next⟩ := exists_newlines_next after
      rw [skipped'] at skipped
      subst skipped
      obtain ⟨s, rfl, front⟩ := sound _ (.statement first) _ _ head
      have whole := Broken.enters (.statementsTail front newlines next) failed
      simpa using whole

theorem statement_broken (failed : statement (fuel + 1) tokens = .error failure) :
    Broken fuel .statement tokens failure := by
  simp only [statement, Parser.bind_error, Parser.get_error, Parser.get_ok, false_or] at failed
  obtain ⟨found, _, ⟨rfl, rfl⟩, failed⟩ := failed
  generalize same : tokens = found at failed
  split at failed
  next start more =>
    subst same
    simp only [Parser.bind_error, advance_error, advance_ok, List.tail_cons,
      expectIdentifier_error, expectIdentifier_ok, expect_punctuation_error, expect_punctuation,
      Parser.pure_error, and_false, exists_false, or_false, false_or] at failed
    obtain ⟨_, _, rfl, ⟨other, rfl⟩ | ⟨name, _, ⟨word, rfl⟩, failed⟩⟩ := failed
    · exact .stops (.declareName other)
    · obtain ⟨other, rfl⟩ | ⟨mark, _, rfl, failed⟩ := failed
      · exact .stops (.declareMark other)
      · exact .enters .declare failed
  next start more =>
    subst same
    simp only [Parser.bind_error, advance_error, advance_ok, List.tail_cons,
      expectIdentifier_error, expectIdentifier_ok, expect_keyword_error, expect_keyword,
      Parser.pure_error, and_false, exists_false, or_false, false_or] at failed
    obtain ⟨_, _, rfl, ⟨other, rfl⟩ | ⟨binding, _, ⟨word, rfl⟩, failed⟩⟩ := failed
    · exact .stops (.forEachName other)
    · obtain ⟨other, rfl⟩ | ⟨mark, _, rfl, failed | ⟨iterable, _, head, failed⟩⟩ := failed
      · exact .stops (.forEachWord other)
      · exact .enters .iterable failed
      · obtain ⟨s, rfl, front⟩ := sound _ (.expression false iterable) _ _ head
        exact .enters (.body front) failed
  next name start mark more =>
    subst same
    simp only [Parser.bind_error, Parser.set_error, Parser.set_ok, Parser.pure_error, and_false,
      exists_false, or_false, false_or] at failed
    obtain ⟨_, _, rfl, failed⟩ := failed
    exact .enters .assign failed
  next noLet noFor noAssign =>
    subst same
    simp only [Parser.bind_error, Parser.pure_error, and_false, exists_false, or_false] at failed
    refine .enters (.expressionStatement ?_ ?_ ?_) failed
    · unfold Lookahead.startsAssignment
      split
      next => exact (noAssign _ _ _ _ rfl).elim
      next => rfl
    · intro next
      obtain ⟨span, more, rfl⟩ := exists_keyword next
      exact noLet _ _ rfl
    · intro next
      obtain ⟨span, more, rfl⟩ := exists_keyword next
      exact noFor _ _ rfl

theorem broken (failed : goal.Refuses (fuel + 1) tokens failure) :
    Broken fuel goal tokens failure := by
  cases goal with
  | expression => exact expression_broken failed
  | operations => exact operations_broken failed
  | call => exact call_broken failed
  | suffixes => exact suffixes_broken failed
  | arguments => exact arguments_broken failed
  | argumentsTail => exact argumentsTail_broken failed
  | primary => exact primary_broken failed
  | parenthesized => exact parenthesized_broken failed
  | function => exact function_broken failed.1 failed.2.1 failed.2.2
  | blockOrExpression => exact blockOrExpression_broken failed
  | conditional => exact conditional_broken failed
  | alternative => exact alternative_broken failed
  | block => exact block_broken failed
  | statements => exact statements_broken failed
  | statement => exact statement_broken failed

/-- With enough fuel every refusal is a failure of the judgment. -/
theorem fails_of_refuses (enough : 8 * tokens.length + goal.depth ≤ fuel)
    (failed : goal.Refuses fuel tokens failure) :
    ∃ s, tokens = s ++ failure.rest ∧ Fails goal s failure.rest failure.expected := by
  induction fuel generalizing goal tokens with
  | zero => cases goal <;> simp [Goal.depth] at enough
  | succ fuel ih =>
    cases broken failed with
    | stops stops => exact ⟨_, rfl, .here stops⟩
    | enters enters within =>
      have nearer := enters.depth_lt
      rw [List.length_append] at enough
      obtain ⟨t, rfl, fails⟩ := ih (by omega) within
      exact ⟨_, by simp, .inside enters fails⟩

end Recognition

end PixelScript
