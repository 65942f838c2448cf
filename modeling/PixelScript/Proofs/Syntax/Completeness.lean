import PixelScript.Proofs.Syntax.Soundness

/-! Every phrase is parsed from the tokens that spell it, by all fuel that their number
bounds. So running out of fuel is never the reason why a well-formed text is refused, and
parsing a program is the same as spelling one. -/
namespace PixelScript
open Grammar

/-- How deep the parser goes from a phrase before it takes a token. -/
def Phrase.depth : Phrase → Nat
  | operations .. | arguments .. | argumentsTail .. | parenthesized .. | function ..
  | conditional .. | block .. => 1
  | primary .. | suffixes .. => 2
  | call .. => 3
  | expression .. => 4
  | blockOrExpression .. | statement .. => 5
  | alternative .. | statements .. => 6

namespace Recognition

/-- The phrase is parsed from `s` before `rest` by all fuel that the length of `s` bounds. -/
def Complete (phrase : Phrase) (s rest : List Token) : Prop :=
  ∀ fuel, 8 * s.length + phrase.depth ≤ fuel → phrase.Parses fuel (s ++ rest) rest

theorem Complete.of_succ
    (parses : ∀ fuel, 8 * s.length + phrase.depth ≤ fuel + 1 →
      phrase.Parses (fuel + 1) (s ++ rest) rest) : Complete phrase s rest := by
  intro fuel enough
  cases fuel with
  | zero => cases phrase <;> simp [Phrase.depth] at enough
  | succ fuel => exact parses fuel enough

variable {trailing : Bool} {s t rest : List Token}

theorem expression_parses (solid : 0 < s.length)
    (head : Complete (.call trailing first) s (t ++ rest))
    (tail : Complete (.operations trailing first result) t rest) :
    Complete (.expression trailing result) (s ++ t) rest := by
  refine .of_succ fun fuel enough => ?_
  simp only [Phrase.depth, List.length_append] at enough
  simp only [Phrase.Parses, List.append_assoc, expression, Parser.bind_ok]
  exact ⟨_, _, head fuel (by simp only [Phrase.depth]; omega),
    tail fuel (by simp only [Phrase.depth]; omega)⟩

theorem operationsEnd_parses (ends : (Lookahead.current rest).kind.operator? = none) :
    Complete (.operations trailing left left) [] rest := by
  refine .of_succ fun fuel _ => ?_
  simp only [Phrase.Parses, List.nil_append, operations, Parser.bind_ok, Parser.get_ok]
  refine ⟨_, _, ⟨rfl, rfl⟩, ?_⟩
  simp only [ends, Parser.pure_ok, and_self]

theorem operationsMore_parses (found : token.kind.operator? = some operator)
    (head : Complete (.call trailing right) s (t ++ rest))
    (tail : Complete (.operations trailing
      (.operation operator left right (left.span.merge right.span)) result) t rest) :
    Complete (.operations trailing left result) (token :: (s ++ t)) rest := by
  refine .of_succ fun fuel enough => ?_
  simp only [Phrase.depth, List.length_cons, List.length_append] at enough
  simp only [Phrase.Parses, List.cons_append, List.append_assoc, operations, Parser.bind_ok,
    Parser.get_ok]
  refine ⟨_, _, ⟨rfl, rfl⟩, ?_⟩
  simp only [Lookahead.current_cons, found, Parser.bind_ok, advance_ok, List.tail_cons]
  exact ⟨(), _, rfl, _, _, head fuel (by simp only [Phrase.depth]; omega),
    tail fuel (by simp only [Phrase.depth]; omega)⟩

theorem call_parses (solid : 0 < s.length)
    (head : Complete (.primary trailing first) s (t ++ rest))
    (tail : Complete (.suffixes trailing first result) t rest) :
    Complete (.call trailing result) (s ++ t) rest := by
  refine .of_succ fun fuel enough => ?_
  simp only [Phrase.depth, List.length_append] at enough
  simp only [Phrase.Parses, List.append_assoc, call, Parser.bind_ok]
  exact ⟨_, _, head fuel (by simp only [Phrase.depth]; omega),
    tail fuel (by simp only [Phrase.depth]; omega)⟩

theorem suffixesEnd_parses (ends : Lookahead.endsSuffixes trailing value rest = true) :
    Complete (.suffixes trailing value value) [] rest := by
  refine .of_succ fun fuel _ => ?_
  simp only [Phrase.Parses, List.nil_append, callSuffixes, Parser.bind_ok, peek_ok]
  refine ⟨_, _, ⟨rfl, rfl⟩, ?_⟩
  unfold Lookahead.endsSuffixes at ends
  generalize Lookahead.currentClass rest = next at ends ⊢
  split
  · contradiction
  · contradiction
  · rw [if_neg (by simpa only [Bool.not_eq_true', Bool.eq_false_iff] using ends)]
    exact Parser.pure_ok.mpr ⟨rfl, rfl⟩
  · exact Parser.pure_ok.mpr ⟨rfl, rfl⟩

theorem suffixesCall_parses (opens : Lookahead.currentClass (s ++ (t ++ rest)) =
      .punctuation .leftParen)
    (solid : 0 < s.length) (head : Complete (.arguments args close) s (t ++ rest))
    (tail : Complete (.suffixes trailing (.call value args (value.span.merge close)) result)
      t rest) :
    Complete (.suffixes trailing value result) (s ++ t) rest := by
  refine .of_succ fun fuel enough => ?_
  simp only [Phrase.depth, List.length_append] at enough
  simp only [Phrase.Parses, List.append_assoc, callSuffixes, Parser.bind_ok, peek_ok]
  refine ⟨_, _, ⟨rfl, rfl⟩, ?_⟩
  simp only [opens, Parser.bind_ok]
  exact ⟨(args, close), _, head fuel (by simp only [Phrase.depth]; omega),
    tail fuel (by simp only [Phrase.depth]; omega)⟩

theorem suffixesMethod_parses (head : Complete (.arguments args close) s (t ++ rest))
    (tail : Complete (.suffixes trailing
      (.methodCall value method args (value.span.merge close)) result) t rest) :
    Complete (.suffixes trailing value result)
      (⟨.punctuation .dot, dot⟩ :: ⟨.identifier method, name⟩ :: (s ++ t)) rest := by
  refine .of_succ fun fuel enough => ?_
  simp only [Phrase.depth, List.length_cons, List.length_append] at enough
  simp only [Phrase.Parses, List.cons_append, List.append_assoc, callSuffixes, Parser.bind_ok,
    peek_ok]
  refine ⟨_, _, ⟨rfl, rfl⟩, ?_⟩
  simp only [Lookahead.currentClass_cons, TokenKind.toClass, Parser.bind_ok, advance_ok,
    List.tail_cons, expectIdentifier_ok]
  exact ⟨(), _, rfl, method, _, ⟨name, rfl⟩, (args, close), _,
    head fuel (by simp only [Phrase.depth]; omega), tail fuel (by simp only [Phrase.depth]; omega)⟩

theorem suffixesBlock_parses {inner : Block}
    (opens : Lookahead.currentClass (s ++ rest) = .punctuation .leftBrace)
    (isCall : value.isCall = true) (body : Complete (.block true inner) s rest) :
    Complete (.suffixes true value (value.withTrailingBlock inner)) s rest := by
  refine .of_succ fun fuel enough => ?_
  simp only [Phrase.depth] at enough
  simp only [Phrase.Parses, callSuffixes, Parser.bind_ok, peek_ok]
  refine ⟨_, _, ⟨rfl, rfl⟩, ?_⟩
  simp only [opens, isCall, Bool.and_self, if_true, Parser.bind_ok, Parser.pure_ok]
  exact ⟨_, _, body fuel (by simp only [Phrase.depth]; omega), rfl, rfl⟩

theorem arguments_parses (newlines : Newlines n)
    (next : Lookahead.currentClass (s ++ rest) ≠ .newline)
    (tail : Complete (.argumentsTail args close) s rest) :
    Complete (.arguments args close) (⟨.punctuation .leftParen, start⟩ :: (n ++ s)) rest := by
  refine .of_succ fun fuel enough => ?_
  simp only [Phrase.depth, List.length_cons, List.length_append] at enough
  simp only [Phrase.Parses, List.cons_append, List.append_assoc, arguments, Parser.bind_ok,
    expect_punctuation, skipNewlines_ok]
  exact ⟨start, _, rfl, (), _, newlines.dropWhile_append next,
    tail fuel (by simp only [Phrase.depth]; omega)⟩

theorem argumentsNone_parses :
    Complete (.argumentsTail [] close) [⟨.punctuation .rightParen, close⟩] rest := by
  refine .of_succ fun fuel _ => ?_
  simp only [Phrase.Parses, argumentsTail, Parser.bind_ok, peek_ok]
  refine ⟨_, _, ⟨rfl, rfl⟩, ?_⟩
  rw [if_pos (by rfl)]
  simp only [Parser.bind_ok, expect_punctuation, Parser.pure_ok]
  exact ⟨close, _, rfl, rfl, rfl⟩

theorem argumentsLast_parses
    (opens : ∀ tokens, Lookahead.currentClass (s ++ tokens) ≠ .punctuation .rightParen)
    (head : Complete (.expression true first) s (n ++ ⟨.punctuation .rightParen, close⟩ :: rest))
    (newlines : Newlines n) :
    Complete (.argumentsTail [first] close)
      (s ++ (n ++ [⟨.punctuation .rightParen, close⟩])) rest := by
  refine .of_succ fun fuel enough => ?_
  simp only [Phrase.depth, List.length_append, List.length_singleton] at enough
  simp only [Phrase.Parses, List.append_assoc, List.cons_append, List.nil_append, argumentsTail,
    Parser.bind_ok, peek_ok]
  refine ⟨_, _, ⟨rfl, rfl⟩, ?_⟩
  have skipped := newlines.dropWhile_cons ⟨.punctuation .rightParen, close⟩ rest rfl
  rw [if_neg (opens _)]
  simp only [Parser.bind_ok, skipNewlines_ok, peek_ok]
  refine ⟨_, _, head fuel (by simp only [Phrase.depth]; omega), (), _, skipped, _, _,
    ⟨rfl, rfl⟩, ?_⟩
  rw [if_neg (by simp [TokenKind.toClass])]
  simp only [Parser.bind_ok, expect_punctuation, Parser.pure_ok]
  exact ⟨close, _, rfl, rfl, rfl⟩

theorem argumentsMore_parses
    (opens : ∀ tokens, Lookahead.currentClass (s ++ tokens) ≠ .punctuation .rightParen)
    (next : Lookahead.currentClass (t ++ rest) ≠ .newline)
    (head : Complete (.expression true first) s
      (n ++ ⟨.punctuation .comma, comma⟩ :: (m ++ (t ++ rest))))
    (newlines : Newlines n) (newlines' : Newlines m)
    (tail : Complete (.argumentsTail args close) t rest) :
    Complete (.argumentsTail (first :: args) close)
      (s ++ (n ++ ⟨.punctuation .comma, comma⟩ :: (m ++ t))) rest := by
  refine .of_succ fun fuel enough => ?_
  simp only [Phrase.depth, List.length_append, List.length_cons] at enough
  simp only [Phrase.Parses, List.append_assoc, List.cons_append, argumentsTail, Parser.bind_ok,
    peek_ok]
  refine ⟨_, _, ⟨rfl, rfl⟩, ?_⟩
  have skipped := newlines.dropWhile_cons ⟨.punctuation .comma, comma⟩ (m ++ (t ++ rest)) rfl
  rw [if_neg (opens _)]
  simp only [Parser.bind_ok, skipNewlines_ok, peek_ok]
  refine ⟨_, _, head fuel (by simp only [Phrase.depth]; omega), (), _, skipped, _, _,
    ⟨rfl, rfl⟩, ?_⟩
  rw [if_pos (by rfl)]
  simp only [Parser.bind_ok, advance_ok, List.tail_cons, skipNewlines_ok, Parser.pure_ok]
  exact ⟨(), _, rfl, (), _, newlines'.dropWhile_append next, (args, close), _,
    tail fuel (by simp only [Phrase.depth]; omega), rfl, rfl⟩

/-- A token that is a primary by itself. -/
theorem token_parses (literal : ∀ fuel, primary (fuel + 1) trailing (token :: rest) =
      .ok (value, rest)) : Complete (.primary trailing value) [token] rest :=
  .of_succ fun fuel _ => literal fuel

theorem primaryConditional_parses (inner : Complete (.conditional trailing result) s rest)
    (opens : Lookahead.currentClass (s ++ rest) = .keyword .ifWord) :
    Complete (.primary trailing result) s rest := by
  refine .of_succ fun fuel enough => ?_
  simp only [Phrase.depth] at enough
  have parsed := inner fuel (by simp only [Phrase.depth]; omega)
  obtain ⟨span, more, same⟩ := exists_keyword opens
  rw [same] at parsed ⊢
  simp only [Phrase.Parses, primary, Parser.bind_ok, Parser.get_ok]
  exact ⟨_, _, ⟨rfl, rfl⟩, parsed⟩

theorem primaryBlock_parses (inner : Complete (.block false body) s rest)
    (opens : Lookahead.currentClass (s ++ rest) = .punctuation .leftBrace) :
    Complete (.primary trailing (.block body body.span)) s rest := by
  refine .of_succ fun fuel enough => ?_
  simp only [Phrase.depth] at enough
  have parsed := inner fuel (by simp only [Phrase.depth]; omega)
  obtain ⟨span, more, same⟩ := exists_punctuation opens
  rw [same] at parsed ⊢
  simp only [Phrase.Parses, primary, Parser.bind_ok, Parser.get_ok]
  refine ⟨_, _, ⟨rfl, rfl⟩, ?_⟩
  simp only [Parser.bind_ok, Parser.pure_ok]
  exact ⟨_, _, parsed, rfl, rfl⟩

theorem primaryFunction_parses (inner : Complete (.function trailing result) s rest)
    (opens : Lookahead.currentClass (s ++ rest) = .punctuation .leftParen) :
    Complete (.primary trailing result) s rest := by
  refine .of_succ fun fuel enough => ?_
  simp only [Phrase.depth] at enough
  obtain ⟨head, parsed⟩ := inner fuel (by simp only [Phrase.depth]; omega)
  obtain ⟨span, more, same⟩ := exists_punctuation opens
  rw [same] at head parsed ⊢
  simp only [Phrase.Parses, primary, Parser.bind_ok, Parser.get_ok]
  refine ⟨_, _, ⟨rfl, rfl⟩, ?_⟩
  simp only [head, if_true]
  exact parsed

theorem primaryParenthesized_parses (inner : Complete (.parenthesized result) s rest)
    (opens : Lookahead.currentClass (s ++ rest) = .punctuation .leftParen)
    (plain : Lookahead.isFunctionHead (s ++ rest) = false) :
    Complete (.primary trailing result) s rest := by
  refine .of_succ fun fuel enough => ?_
  simp only [Phrase.depth] at enough
  have parsed := inner fuel (by simp only [Phrase.depth]; omega)
  obtain ⟨span, more, same⟩ := exists_punctuation opens
  rw [same] at plain parsed ⊢
  simp only [Phrase.Parses, primary, Parser.bind_ok, Parser.get_ok]
  refine ⟨_, _, ⟨rfl, rfl⟩, ?_⟩
  simp only [plain]
  exact parsed

theorem parenthesized_parses (newlines : Newlines n)
    (next : ∀ tokens, Lookahead.currentClass (s ++ tokens) ≠ .newline)
    (inner : Complete (.expression true value) s (m ++ ⟨.punctuation .rightParen, close⟩ :: rest))
    (newlines' : Newlines m) :
    Complete (.parenthesized (value.withSpan (start.merge close)))
      (⟨.punctuation .leftParen, start⟩ ::
        (n ++ (s ++ (m ++ [⟨.punctuation .rightParen, close⟩])))) rest := by
  refine .of_succ fun fuel enough => ?_
  simp only [Phrase.depth, List.length_cons, List.length_append] at enough
  simp only [Phrase.Parses, List.cons_append, List.append_assoc, List.nil_append, parenthesized,
    Parser.bind_ok, expect_punctuation, skipNewlines_ok, Parser.pure_ok]
  exact ⟨start, _, rfl, (), _, newlines.dropWhile_append (next _), _, _,
    inner fuel (by simp only [Phrase.depth]; omega), (), _,
    newlines'.dropWhile_cons _ _ rfl, close, _, rfl, rfl, rfl⟩

theorem function_parses (parameters : Parameters params p) (newlines : Newlines n)
    (next : Lookahead.currentClass (s ++ rest) ≠ .newline)
    (inner : Complete (.blockOrExpression trailing true body) s rest) :
    Complete (.function trailing (.function params body (start.merge body.span)))
      (⟨.punctuation .leftParen, start⟩ :: (p ++ ⟨.punctuation .rightParen, close⟩ ::
        ⟨.punctuation .arrow, arrow⟩ :: (n ++ s))) rest := by
  refine .of_succ fun fuel enough => ?_
  simp only [Phrase.depth, List.length_cons, List.length_append] at enough
  simp only [Phrase.Parses, List.cons_append, List.append_assoc, function, Parser.bind_ok,
    expect_punctuation, skipNewlines_ok, Parser.pure_ok]
  exact ⟨Lookahead.isFunctionHead_iff.mpr ⟨_, params, p, close, arrow, _, parameters, rfl⟩,
    start, _, rfl, params, _, parameters_ok parameters, close, _, rfl, arrow, _, rfl, (), _,
    newlines.dropWhile_append next, _, _, inner fuel (by simp only [Phrase.depth]; omega), rfl, rfl⟩

theorem braced_parses (inner : Complete (.block isFunctionBody body) s rest)
    (opens : Lookahead.currentClass (s ++ rest) = .punctuation .leftBrace) :
    Complete (.blockOrExpression trailing isFunctionBody body) s rest := by
  refine .of_succ fun fuel enough => ?_
  simp only [Phrase.depth] at enough
  simp only [Phrase.Parses, blockOrExpression, Parser.bind_ok, peek_ok]
  refine ⟨_, _, ⟨rfl, rfl⟩, ?_⟩
  rw [if_pos opens]
  exact inner fuel (by simp only [Phrase.depth]; omega)

theorem bare_parses (inner : Complete (.expression trailing value) s rest)
    (unbraced : Lookahead.currentClass (s ++ rest) ≠ .punctuation .leftBrace) :
    Complete (.blockOrExpression trailing isFunctionBody (.ofExpr value isFunctionBody)) s
      rest := by
  refine .of_succ fun fuel enough => ?_
  simp only [Phrase.depth] at enough
  simp only [Phrase.Parses, blockOrExpression, Parser.bind_ok, peek_ok]
  refine ⟨_, _, ⟨rfl, rfl⟩, ?_⟩
  rw [if_neg unbraced]
  simp only [Parser.bind_ok, Parser.pure_ok]
  exact ⟨_, _, inner fuel (by simp only [Phrase.depth]; omega), rfl, rfl⟩

theorem conditional_parses (condition : Complete (.expression false test) s (n ++ (t ++ rest)))
    (newlines : Newlines n) (next : Lookahead.currentClass (t ++ rest) ≠ .newline)
    (branch : Complete (.blockOrExpression trailing false thenBranch) t rest)
    (noElse : Lookahead.elseAhead rest = false) :
    Complete (.conditional trailing
        (.conditional test thenBranch none (start.merge thenBranch.span)))
      (⟨.keyword .ifWord, start⟩ :: (s ++ (n ++ t))) rest := by
  refine .of_succ fun fuel enough => ?_
  simp only [Phrase.depth, List.length_cons, List.length_append] at enough
  simp only [Phrase.Parses, List.cons_append, List.append_assoc, conditional, Parser.bind_ok,
    expect_keyword, skipNewlines_ok]
  refine ⟨start, _, rfl, _, _, condition fuel (by simp only [Phrase.depth]; omega), (), _,
    newlines.dropWhile_append next, _, _, branch fuel (by simp only [Phrase.depth]; omega),
    false, _, takeElse_ok.mpr (.inr ⟨rfl, noElse, rfl⟩), ?_⟩
  simp only [Bool.false_eq_true, if_false]
  exact Parser.pure_ok.mpr ⟨rfl, rfl⟩

theorem conditionalElse_parses
    (condition : Complete (.expression false test) s
      (n ++ (t ++ (m ++ ⟨.keyword .elseWord, word⟩ :: (u ++ rest)))))
    (newlines : Newlines n) (next : ∀ tokens, Lookahead.currentClass (t ++ tokens) ≠ .newline)
    (branch : Complete (.blockOrExpression trailing false thenBranch) t
      (m ++ ⟨.keyword .elseWord, word⟩ :: (u ++ rest)))
    (newlines' : Newlines m) (other : Complete (.alternative trailing elseBranch) u rest) :
    Complete (.conditional trailing
        (.conditional test thenBranch (some elseBranch) (start.merge elseBranch.span)))
      (⟨.keyword .ifWord, start⟩ ::
        (s ++ (n ++ (t ++ (m ++ ⟨.keyword .elseWord, word⟩ :: u))))) rest := by
  refine .of_succ fun fuel enough => ?_
  simp only [Phrase.depth, List.length_cons, List.length_append] at enough
  simp only [Phrase.Parses, List.cons_append, List.append_assoc, conditional, Parser.bind_ok,
    expect_keyword, skipNewlines_ok]
  refine ⟨start, _, rfl, _, _, condition fuel (by simp only [Phrase.depth]; omega), (), _,
    newlines.dropWhile_append (next _), _, _, branch fuel (by simp only [Phrase.depth]; omega),
    true, _, takeElse_ok.mpr (.inl ⟨rfl, m, word, newlines', rfl⟩), ?_⟩
  simp only [if_true, Parser.bind_ok, Parser.pure_ok]
  exact ⟨_, _, other fuel (by simp only [Phrase.depth]; omega), rfl, rfl⟩

theorem alternativeConditional_parses (inner : Complete (.conditional trailing nested) s rest)
    (opens : Lookahead.currentClass (s ++ rest) = .keyword .ifWord) :
    Complete (.alternative trailing (.ofExpr nested false)) s rest := by
  refine .of_succ fun fuel enough => ?_
  simp only [Phrase.depth] at enough
  simp only [Phrase.Parses, alternative, Parser.bind_ok, peek_ok]
  refine ⟨_, _, ⟨rfl, rfl⟩, ?_⟩
  rw [if_pos opens]
  simp only [Parser.bind_ok, Parser.pure_ok]
  exact ⟨_, _, inner fuel (by simp only [Phrase.depth]; omega), rfl, rfl⟩

theorem alternative_parses (newlines : Newlines n)
    (inner : Complete (.blockOrExpression trailing false body) s rest)
    (next : Lookahead.currentClass (s ++ rest) ≠ .newline)
    (plain : Lookahead.currentClass (n ++ (s ++ rest)) ≠ .keyword .ifWord) :
    Complete (.alternative trailing body) (n ++ s) rest := by
  refine .of_succ fun fuel enough => ?_
  simp only [Phrase.depth, List.length_append] at enough
  simp only [Phrase.Parses, List.append_assoc, alternative, Parser.bind_ok, peek_ok]
  refine ⟨_, _, ⟨rfl, rfl⟩, ?_⟩
  rw [if_neg plain]
  simp only [Parser.bind_ok, skipNewlines_ok]
  exact ⟨(), _, newlines.dropWhile_append next, inner fuel (by simp only [Phrase.depth]; omega)⟩

theorem block_parses (newlines : Newlines n)
    (next : Lookahead.currentClass (s ++ ⟨.punctuation .rightBrace, close⟩ :: rest) ≠ .newline)
    (inner : Complete (.statements true body) s (⟨.punctuation .rightBrace, close⟩ :: rest)) :
    Complete (.block isFunctionBody (.mk body isFunctionBody (start.merge close)))
      (⟨.punctuation .leftBrace, start⟩ ::
        (n ++ (s ++ [⟨.punctuation .rightBrace, close⟩]))) rest := by
  refine .of_succ fun fuel enough => ?_
  simp only [Phrase.depth, List.length_cons, List.length_append] at enough
  simp only [Phrase.Parses, List.cons_append, List.append_assoc, List.nil_append, block,
    Parser.bind_ok, expect_punctuation, skipNewlines_ok, Parser.pure_ok]
  exact ⟨start, _, rfl, (), _, newlines.dropWhile_append next, _, _,
    inner fuel (by simp only [Phrase.depth]; omega), close, _, rfl, rfl, rfl⟩

theorem statementsEnd_parses (ends : Lookahead.endsStatements inBlock rest = true) :
    Complete (.statements inBlock []) [] rest := by
  refine .of_succ fun fuel _ => ?_
  simp only [Phrase.Parses, List.nil_append, statements, Parser.bind_ok, peek_ok]
  refine ⟨_, _, ⟨rfl, rfl⟩, ?_⟩
  rw [if_pos (by simpa [Lookahead.endsStatements] using ends)]
  exact Parser.pure_ok.mpr ⟨rfl, rfl⟩

theorem statementsMore_parses (solid : 0 < s.length)
    (goesOn : ∀ tokens, Lookahead.endsStatements inBlock (s ++ tokens) = false)
    (head : Complete (.statement first) s (n ++ (t ++ rest))) (newlines : Newlines n)
    (next : Lookahead.currentClass (t ++ rest) ≠ .newline)
    (tail : Complete (.statements inBlock more) t rest) :
    Complete (.statements inBlock (first :: more)) (s ++ (n ++ t)) rest := by
  refine .of_succ fun fuel enough => ?_
  simp only [Phrase.depth, List.length_append] at enough
  simp only [Phrase.Parses, List.append_assoc, statements, Parser.bind_ok, peek_ok]
  refine ⟨_, _, ⟨rfl, rfl⟩, ?_⟩
  have open_ := goesOn (n ++ (t ++ rest))
  rw [if_neg (by simpa [Lookahead.endsStatements] using open_)]
  simp only [Parser.bind_ok, skipNewlines_ok, Parser.pure_ok]
  exact ⟨_, _, head fuel (by simp only [Phrase.depth]; omega), (), _,
    newlines.dropWhile_append next, _, _, tail fuel (by simp only [Phrase.depth]; omega), rfl, rfl⟩

theorem declare_parses (inner : Complete (.expression true value) s rest) :
    Complete (.statement (.declare name value (start.merge value.span)))
      (⟨.keyword .letWord, start⟩ :: ⟨.identifier name, word⟩ ::
        ⟨.punctuation .assign, mark⟩ :: s) rest := by
  refine .of_succ fun fuel enough => ?_
  simp only [Phrase.depth, List.length_cons] at enough
  simp only [Phrase.Parses, List.cons_append, statement, Parser.bind_ok, Parser.get_ok]
  refine ⟨_, _, ⟨rfl, rfl⟩, ?_⟩
  simp only [Parser.bind_ok, advance_ok, List.tail_cons, expectIdentifier_ok, expect_punctuation,
    Parser.pure_ok]
  exact ⟨(), _, rfl, name, _, ⟨word, rfl⟩, mark, _, rfl, _, _,
    inner fuel (by simp only [Phrase.depth]; omega), rfl, rfl⟩

theorem assign_parses (inner : Complete (.expression true value) s rest) :
    Complete (.statement (.assign name value (start.merge value.span)))
      (⟨.identifier name, start⟩ :: ⟨.punctuation .assign, mark⟩ :: s) rest := by
  refine .of_succ fun fuel enough => ?_
  simp only [Phrase.depth, List.length_cons] at enough
  simp only [Phrase.Parses, List.cons_append, statement, Parser.bind_ok, Parser.get_ok]
  refine ⟨_, _, ⟨rfl, rfl⟩, ?_⟩
  simp only [Parser.bind_ok, Parser.set_ok, Parser.pure_ok]
  exact ⟨⟨⟩, _, rfl, _, _, inner fuel (by simp only [Phrase.depth]; omega), rfl, rfl⟩

theorem forEach_parses (head : Complete (.expression false iterable) s (t ++ rest))
    (tail : Complete (.block false body) t rest) :
    Complete (.statement (.forEach binding iterable body (start.merge body.span)))
      (⟨.keyword .forWord, start⟩ :: ⟨.identifier binding, word⟩ ::
        ⟨.keyword .inWord, mark⟩ :: (s ++ t)) rest := by
  refine .of_succ fun fuel enough => ?_
  simp only [Phrase.depth, List.length_cons, List.length_append] at enough
  simp only [Phrase.Parses, List.cons_append, List.append_assoc, statement, Parser.bind_ok,
    Parser.get_ok]
  refine ⟨_, _, ⟨rfl, rfl⟩, ?_⟩
  simp only [Parser.bind_ok, advance_ok, List.tail_cons, expectIdentifier_ok, expect_keyword,
    Parser.pure_ok]
  exact ⟨(), _, rfl, binding, _, ⟨word, rfl⟩, mark, _, rfl, _, _,
    head fuel (by simp only [Phrase.depth]; omega), _, _,
    tail fuel (by simp only [Phrase.depth]; omega), rfl, rfl⟩

theorem expressionStatement_parses (inner : Complete (.expression true value) s rest)
    (opens : TokenClass.opensExpression (Lookahead.currentClass (s ++ rest)) = true)
    (plain : Lookahead.startsAssignment (s ++ rest) = false) :
    Complete (.statement (.expr value value.span)) s rest := by
  refine .of_succ fun fuel enough => ?_
  simp only [Phrase.depth] at enough
  have parsed := inner fuel (by simp only [Phrase.depth]; omega)
  simp only [Phrase.Parses, statement, Parser.bind_ok, Parser.get_ok]
  refine ⟨_, _, ⟨rfl, rfl⟩, ?_⟩
  generalize s ++ rest = tokens at opens plain parsed ⊢
  split
  · simp [TokenKind.toClass, TokenClass.opensExpression] at opens
  · simp [TokenKind.toClass, TokenClass.opensExpression] at opens
  · simp [Lookahead.startsAssignment] at plain
  · simp only [Parser.bind_ok, Parser.pure_ok]
    exact ⟨_, _, parsed, rfl, rfl⟩

end Recognition

theorem TokenClass.opensExpression.ne {next other : TokenClass}
    (opens : next.opensExpression = true) (closed : other.opensExpression = false) :
    next ≠ other := by
  rintro rfl
  simp [opens] at closed

theorem Spells.next_ne_newline (spelled : Spells phrase s rest)
    (opens : phrase.first .newline = false) (solid : phrase.isNullable = false)
    (tokens : List Token) : Lookahead.currentClass (s ++ tokens) ≠ .newline := by
  intro same
  have first := spelled.first_class solid tokens
  rw [same, opens] at first
  contradiction

/-- Statements start, or else end, at a token that is no newline. -/
theorem Spells.statements_next (spelled : Spells (.statements inBlock body) s rest) :
    Lookahead.currentClass (s ++ rest) ≠ .newline := by
  intro same
  cases spelled with
  | statementsEnd ends => simp_all [Lookahead.endsStatements]
  | statementsMore head _ _ =>
    rw [List.append_assoc] at same
    exact head.next_ne_newline rfl rfl _ same

/-- Where a statement starts, the statements have not ended. -/
theorem Spells.goes_on (spelled : Spells (.statement first) s rest) (inBlock : Bool)
    (tokens : List Token) : Lookahead.endsStatements inBlock (s ++ tokens) = false := by
  have first := spelled.first_class rfl tokens
  unfold Lookahead.endsStatements
  generalize Lookahead.currentClass (s ++ tokens) = next at first ⊢
  cases next with
  | endOfInput => simp [Phrase.first, TokenClass.opensExpression] at first
  | punctuation mark =>
    cases mark with
    | rightBrace => simp [Phrase.first, TokenClass.opensExpression] at first
    | _ => simp
  | _ => simp

theorem Spells.complete (spelled : Spells phrase s rest) : Recognition.Complete phrase s rest := by
  induction spelled with
  | expression head _ ihHead ihTail =>
    exact Recognition.expression_parses (head.length_pos rfl) ihHead ihTail
  | operationsEnd ends => exact Recognition.operationsEnd_parses ends
  | operationsMore found _ _ ihHead ihTail =>
    exact Recognition.operationsMore_parses found ihHead ihTail
  | call head _ ihHead ihTail => exact Recognition.call_parses (head.length_pos rfl) ihHead ihTail
  | suffixesEnd ends => exact Recognition.suffixesEnd_parses ends
  | suffixesCall head _ ihHead ihTail =>
    have opens := head.first_class rfl
    exact Recognition.suffixesCall_parses (by simpa [Phrase.first] using opens _)
      (head.length_pos rfl) ihHead ihTail
  | suffixesMethod _ _ ihHead ihTail => exact Recognition.suffixesMethod_parses ihHead ihTail
  | suffixesBlock isCall body ih =>
    exact Recognition.suffixesBlock_parses (by simpa [Phrase.first] using body.first_class rfl _)
      isCall ih
  | arguments newlines tail ih =>
    exact Recognition.arguments_parses newlines (tail.next_ne_newline rfl rfl _) ih
  | argumentsNone => exact Recognition.argumentsNone_parses
  | argumentsLast head newlines ih =>
    refine Recognition.argumentsLast_parses (fun tokens => ?_) ih newlines
    exact TokenClass.opensExpression.ne (head.first_class rfl tokens) rfl
  | argumentsMore head newlines newlines' tail ihHead ihTail =>
    refine Recognition.argumentsMore_parses (fun tokens => ?_) (tail.next_ne_newline rfl rfl _)
      ihHead newlines newlines' ihTail
    exact TokenClass.opensExpression.ne (head.first_class rfl tokens) rfl
  | number | string | trueWord | falseWord | nullWord | identifier =>
    exact Recognition.token_parses fun _ => rfl
  | primaryConditional inner ih =>
    exact Recognition.primaryConditional_parses ih
      (by simpa [Phrase.first] using inner.first_class rfl _)
  | primaryBlock inner ih =>
    exact Recognition.primaryBlock_parses ih (by simpa [Phrase.first] using inner.first_class rfl _)
  | primaryFunction inner ih =>
    exact Recognition.primaryFunction_parses ih
      (by simpa [Phrase.first] using inner.first_class rfl _)
  | primaryParenthesized inner plain ih =>
    exact Recognition.primaryParenthesized_parses ih
      (by simpa [Phrase.first] using inner.first_class rfl _) plain
  | parenthesized newlines inner newlines' ih =>
    exact Recognition.parenthesized_parses newlines (inner.next_ne_newline rfl rfl) ih newlines'
  | function parameters newlines inner ih =>
    exact Recognition.function_parses parameters newlines (inner.next_ne_newline rfl rfl _) ih
  | braced inner ih =>
    exact Recognition.braced_parses ih (by simpa [Phrase.first] using inner.first_class rfl _)
  | bare inner unbraced ih =>
    exact Recognition.bare_parses ih (by rwa [inner.currentClass_append rfl])
  | conditional _ newlines branch noElse ihCondition ihBranch =>
    exact Recognition.conditional_parses ihCondition newlines (branch.next_ne_newline rfl rfl _)
      ihBranch noElse
  | conditionalElse _ newlines branch newlines' _ ihCondition ihBranch ihOther =>
    exact Recognition.conditionalElse_parses ihCondition newlines (branch.next_ne_newline rfl rfl)
      ihBranch newlines' ihOther
  | alternativeConditional inner ih =>
    exact Recognition.alternativeConditional_parses ih
      (by simpa [Phrase.first] using inner.first_class rfl _)
  | @alternative n _ _ _ _ newlines inner plain ih =>
    refine Recognition.alternative_parses newlines ih (inner.next_ne_newline rfl rfl _) ?_
    cases n with
    | nil => rwa [List.nil_append, inner.currentClass_append rfl]
    | cons token more => exact plain
  | block newlines inner ih =>
    exact Recognition.block_parses newlines inner.statements_next ih
  | statementsEnd ends => exact Recognition.statementsEnd_parses ends
  | statementsMore head newlines tail ihHead ihTail =>
    exact Recognition.statementsMore_parses (head.length_pos rfl) (head.goes_on _) ihHead newlines
      tail.statements_next ihTail
  | declare _ ih => exact Recognition.declare_parses ih
  | assign _ ih => exact Recognition.assign_parses ih
  | forEach _ _ ihHead ihTail => exact Recognition.forEach_parses ihHead ihTail
  | expressionStatement inner plain ih =>
    exact Recognition.expressionStatement_parses ih (inner.first_class rfl _) plain

/-- The programs of tokens: newlines, then statements up to an end of input. -/
theorem Program.ofTokens_eq_ok_iff {tokens : List Token} {program : Program} :
    Program.ofTokens tokens = .ok program ↔
      ∃ n s rest, Newlines n ∧ tokens = n ++ (s ++ rest) ∧
        Spells (.statements false program.statements) s rest := by
  have parsed_iff : Program.ofTokens tokens = .ok program ↔ ∃ rest,
      Grammar.statements (fuelFor tokens) false (tokens.dropWhile Lookahead.isNewline) =
        .ok (program.statements, rest) := by
    obtain ⟨body⟩ := program
    simp only [Program.ofTokens, Grammar.program, bind, StateT.bind, Except.bind, skipNewlines]
    generalize Grammar.statements (fuelFor tokens) false (tokens.dropWhile Lookahead.isNewline) =
      outcome
    cases outcome with
    | error failure => simp
    | ok pair =>
      obtain ⟨found, rest⟩ := pair
      simp [pure, StateT.pure, Except.pure]
  rw [parsed_iff]
  constructor
  · rintro ⟨rest, parsed⟩
    obtain ⟨n, newlines, split⟩ := exists_newlines tokens
    obtain ⟨s, same, spelled⟩ :=
      Recognition.sound _ (.statements false program.statements) _ _ parsed
    rw [same] at split
    exact ⟨n, s, rest, newlines, split, spelled⟩
  · rintro ⟨n, s, rest, newlines, rfl, spelled⟩
    refine ⟨rest, ?_⟩
    rw [newlines.dropWhile_append spelled.statements_next]
    apply spelled.complete
    simp only [Phrase.depth, fuelFor, List.length_append]
    omega

end PixelScript
