import PixelScript.Proofs.Syntax.Respelling

/-! A newline more in a list of tokens. What the parser does in front of it stays as it is,
since newlines end all that may go on and begin nothing. So the whole program is read as
before as soon as the innermost goal around the new newline is: agreement of a goal on two
lists is carried outwards along the calls of the parser. -/
namespace PixelScript
open Grammar

/-- `Inserts old new`: one newline more makes `new` of `old`. -/
inductive Inserts : List Token → List Token → Prop
  | here (line : Span) (left : List Token) : Inserts left (⟨.newline, line⟩ :: left)
  | later (token : Token) (inserts : Inserts old new) : Inserts (token :: old) (token :: new)

variable {old new : List Token} {trailing isFunctionBody : Bool}

namespace Inserts

theorem append (inserts : Inserts old new) (s : List Token) : Inserts (s ++ old) (s ++ new) := by
  induction s with
  | nil => exact inserts
  | cons token s ih => exact .later token ih

theorem currentClass_append (ahead : Lookahead.currentClass new = Lookahead.currentClass old)
    (s : List Token) : Lookahead.currentClass (s ++ new) = Lookahead.currentClass (s ++ old) := by
  cases s with
  | nil => exact ahead
  | cons => rfl

/-- A front without newlines in it has been there before. -/
theorem front (inserts : Inserts old (s ++ rest)) (solid : ∀ token ∈ s, token.kind ≠ .newline) :
    ∃ rest', old = s ++ rest' := by
  induction s generalizing old with
  | nil => exact ⟨old, rfl⟩
  | cons token s ih =>
    cases inserts with
    | here => exact absurd rfl (solid _ List.mem_cons_self)
    | later _ inserts =>
      obtain ⟨rest', rfl⟩ := ih inserts fun other member => solid other (.tail _ member)
      exact ⟨rest', rfl⟩

theorem elseAhead (inserts : Inserts old new) :
    Lookahead.elseAhead new = Lookahead.elseAhead old := by
  induction inserts with
  | here => rfl
  | later token _ ih =>
    simp only [Lookahead.elseAhead, List.dropWhile_cons] at ih ⊢
    split
    · exact ih
    · rfl

theorem yields (inserts : Inserts old new) : Yields trailing trailing old new := by
  have same := inserts.elseAhead
  cases inserts with
  | here =>
    refine ⟨id, fun _ => rfl, fun _ _ => rfl, fun none => same.trans none, ?_, ?_⟩
    · intro absurd
      simp [TokenKind.toClass] at absurd
    · intro absurd
      simp [TokenKind.toClass] at absurd
  | later =>
    exact ⟨id, fun ends => ends, fun _ ends => ends, fun none => same.trans none, fun same => same,
      fun same => same⟩

end Inserts

/-- A newline more in what follows a phrase makes no difference to it. -/
theorem Spells.inserts (spelled : Spells phrase s old) (inserts : Inserts old new)
    (solid : phrase.isNullable = false) : Spells phrase s new := by
  cases phrase with
  | expression trailing | call trailing | primary trailing | function trailing
  | blockOrExpression trailing | conditional trailing | alternative trailing =>
    exact @Spells.keeps _ _ _ trailing _ spelled inserts.yields
  | arguments | argumentsTail | parenthesized | block =>
    exact @Spells.keeps _ _ _ true _ spelled trivial
  | statement => exact @Spells.keeps _ _ _ true _ spelled inserts.yields
  | operations | suffixes | statements => contradiction

namespace Lookahead

theorem ne_newline_of_mem_parameters (parameters : Parameters params p) :
    ∀ token ∈ p, token.kind ≠ .newline := by
  cases parameters with
  | none => simp
  | some names =>
    induction names with
    | one => simp
    | more _ ih => simpa using ih

/-- The head of a function has no newlines in it. -/
theorem isFunctionHead_inserts (inserts : Inserts old new)
    (opens : currentClass new = .punctuation .leftParen) (plain : isFunctionHead old = false) :
    isFunctionHead new = false := by
  rw [← Bool.not_eq_true] at plain ⊢
  intro found
  obtain ⟨first, params, p, close, arrow, rest, parameters, rfl⟩ := isFunctionHead_iff.mp found
  cases inserts with
  | here => simp [TokenKind.toClass] at opens
  | @later old _ _ inserts =>
    have solid : ∀ token ∈ p ++ [⟨.punctuation .rightParen, close⟩, ⟨.punctuation .arrow, arrow⟩],
        token.kind ≠ .newline := by
      simpa [or_imp, forall_and] using ne_newline_of_mem_parameters parameters
    obtain ⟨rest', rfl⟩ := Inserts.front (by simpa using inserts) solid
    exact plain (isFunctionHead_iff.mpr ⟨first, params, p, close, arrow, rest', parameters,
      by simp⟩)

theorem endsStatements_congr (ahead : currentClass new = currentClass old) :
    endsStatements inBlock new = endsStatements inBlock old := by
  simp only [endsStatements, ahead]

theorem startsAssignment_inserts (inserts : Inserts old new)
    (plain : startsAssignment old = false) : startsAssignment new = false := by
  rw [← Bool.not_eq_true] at plain ⊢
  intro found
  unfold startsAssignment at found
  split at found
  next name start mark rest =>
    obtain ⟨rest', rfl⟩ := Inserts.front (s := [⟨.identifier name, start⟩,
      ⟨.punctuation .assign, mark⟩]) inserts (by simp)
    exact plain rfl
  next => contradiction

end Lookahead

/-- With fuel enough, the parser reads from `new` what it reads from `old`. -/
def Agreeing {α : Type} (parser : Nat → Parser α) (old new : List Token) : Prop :=
  ∃ bound, ∀ fuel, bound ≤ fuel → ∀ value rest,
    parser fuel old = .ok (value, rest) → parser fuel new = .ok (value, rest)

namespace Agreeing

variable {α β : Type} {parser : Nat → Parser α} {old new : List Token}

theorem refl (tokens : List Token) : Agreeing parser tokens tokens :=
  ⟨0, fun _ _ _ _ parsed => parsed⟩

/-- A step that spends fuel and leaves other tokens, the same for both. -/
theorem step {q : Nat → Parser α} {s t : List Token}
    (opens : ∀ fuel, parser (fuel + 1) old = q fuel s)
    (opens' : ∀ fuel, parser (fuel + 1) new = q fuel t) (agrees : Agreeing q s t) :
    Agreeing parser old new := by
  obtain ⟨bound, holds⟩ := agrees
  refine ⟨bound + 1, fun fuel enough value rest parsed => ?_⟩
  cases fuel with
  | zero => omega
  | succ fuel =>
    rw [opens] at parsed
    rw [opens']
    exact holds fuel (by omega) value rest parsed

theorem succ (agrees : Agreeing (fun fuel => parser (fuel + 1)) old new) :
    Agreeing parser old new :=
  agrees.step (fun _ => rfl) (fun _ => rfl)

/-- The tokens differ within the first of two parsers. -/
theorem inside {next : Nat → α → Parser β} (agrees : Agreeing parser old new) :
    Agreeing (fun fuel => parser fuel >>= next fuel) old new := by
  obtain ⟨bound, holds⟩ := agrees
  refine ⟨bound, fun fuel enough value rest parsed => ?_⟩
  obtain ⟨first, middle, head, tail⟩ := Parser.bind_ok.mp parsed
  exact Parser.bind_ok.mpr ⟨first, middle, holds fuel enough first middle head, tail⟩

/-- The tokens differ behind what the first of two parsers takes. -/
theorem behind {next : Nat → α → Parser β} {first : α} {middle middle' : List Token}
    (head : ∃ bound, ∀ fuel, bound ≤ fuel → parser fuel old = .ok (first, middle))
    (head' : ∃ bound, ∀ fuel, bound ≤ fuel → parser fuel new = .ok (first, middle'))
    (agrees : Agreeing (fun fuel => next fuel first) middle middle') :
    Agreeing (fun fuel => parser fuel >>= next fuel) old new := by
  obtain ⟨bound, given⟩ := head
  obtain ⟨bound', given'⟩ := head'
  obtain ⟨later, holds⟩ := agrees
  refine ⟨bound + bound' + later, fun fuel enough value rest parsed => ?_⟩
  obtain ⟨_, _, found, tail⟩ := Parser.bind_ok.mp parsed
  rw [given fuel (by omega)] at found
  cases found
  exact Parser.bind_ok.mpr ⟨first, middle', given' fuel (by omega), holds fuel (by omega) _ _ tail⟩

/-- Both lists are read, and in the same way. -/
theorem settled {value : α} {rest : List Token}
    (reads : ∃ bound, ∀ fuel, bound ≤ fuel → parser fuel old = .ok (value, rest))
    (reads' : ∃ bound, ∀ fuel, bound ≤ fuel → parser fuel new = .ok (value, rest)) :
    Agreeing parser old new := by
  obtain ⟨bound, given⟩ := reads
  obtain ⟨bound', given'⟩ := reads'
  refine ⟨bound + bound', fun fuel enough value rest parsed => ?_⟩
  rw [given fuel (by omega)] at parsed
  rw [given' fuel (by omega)]
  exact parsed

/-- The first of two parsers knows no fuel. -/
theorem past {first : Parser α} {next : Nat → α → Parser β} {value : α}
    {middle middle' : List Token} (head : first old = .ok (value, middle))
    (head' : first new = .ok (value, middle'))
    (agrees : Agreeing (fun fuel => next fuel value) middle middle') :
    Agreeing (fun fuel => first >>= next fuel) old new :=
  behind ⟨0, fun _ _ => head⟩ ⟨0, fun _ _ => head'⟩ agrees

/-- Where newlines are skipped, they make no difference. -/
theorem skip {next : Nat → Unit → Parser β}
    (same : new.dropWhile Lookahead.isNewline = old.dropWhile Lookahead.isNewline) :
    Agreeing (fun fuel => skipNewlines >>= next fuel) old new :=
  past rfl (skipNewlines_ok.mpr same) (.refl _)

theorem pass {next : Nat → Unit → Parser β} {n : List Token} (newlines : Newlines n)
    (ahead : Lookahead.currentClass old ≠ .newline)
    (ahead' : Lookahead.currentClass new ≠ .newline)
    (agrees : Agreeing (fun fuel => next fuel ()) old new) :
    Agreeing (fun fuel => skipNewlines >>= next fuel) (n ++ old) (n ++ new) :=
  past (skipNewlines_ok.mpr (newlines.dropWhile_append ahead))
    (skipNewlines_ok.mpr (newlines.dropWhile_append ahead')) agrees

/-- A choice by the next token, which is the same for both. -/
theorem look {next : Nat → TokenClass → Parser β}
    (same : Lookahead.currentClass new = Lookahead.currentClass old)
    (agrees : Agreeing (fun fuel => next fuel (Lookahead.currentClass old)) old new) :
    Agreeing (fun fuel => peek >>= next fuel) old new :=
  past (peek_ok.mpr ⟨rfl, rfl⟩) (peek_ok.mpr ⟨same, rfl⟩) agrees

end Agreeing

namespace Goal

def Agrees (old new : List Token) : Goal → Prop
  | expression trailing => Agreeing (fun fuel => Grammar.expression fuel trailing) old new
  | operations trailing value =>
    Agreeing (fun fuel => Grammar.operations fuel trailing value) old new
  | call trailing => Agreeing (fun fuel => Grammar.call fuel trailing) old new
  | suffixes trailing value => Agreeing (fun fuel => callSuffixes fuel trailing value) old new
  | arguments => Agreeing Grammar.arguments old new
  | argumentsTail => Agreeing Grammar.argumentsTail old new
  | primary trailing => Agreeing (fun fuel => Grammar.primary fuel trailing) old new
  | parenthesized => Agreeing Grammar.parenthesized old new
  | function trailing => Agreeing (fun fuel => Grammar.function fuel trailing) old new
  | blockOrExpression trailing isFunctionBody =>
    Agreeing (fun fuel => Grammar.blockOrExpression fuel trailing isFunctionBody) old new
  | conditional trailing => Agreeing (fun fuel => Grammar.conditional fuel trailing) old new
  | alternative trailing => Agreeing (fun fuel => Grammar.alternative fuel trailing) old new
  | block isFunctionBody => Agreeing (fun fuel => Grammar.block fuel isFunctionBody) old new
  | statements inBlock => Agreeing (fun fuel => Grammar.statements fuel inBlock) old new
  | statement => Agreeing Grammar.statement old new

end Goal

namespace Grammar

variable {later : List Token} {trailing : Bool} {fuel : Nat}

theorem operations_cons {token : Token} {value : Expr}
    (found : token.kind.operator? = some operator) :
    operations (fuel + 1) trailing value (token :: later) =
      (do
        let right ← call fuel trailing
        operations fuel trailing (.operation operator value right (value.span.merge right.span)) :
        Parser Expr) later := by
  simp [operations, found, bind, StateT.bind, Except.bind, get, getThe, MonadStateOf.get,
    StateT.get, pure, Except.pure, advance]

theorem callSuffixes_paren {value : Expr}
    (opens : Lookahead.currentClass later = .punctuation .leftParen) :
    callSuffixes (fuel + 1) trailing value later =
      (do
        let (args, close) ← arguments fuel
        callSuffixes fuel trailing (.call value args (value.span.merge close)) : Parser Expr)
        later := by
  simp only [callSuffixes, bind, StateT.bind, Except.bind, peek, opens]

theorem callSuffixes_dot {value : Expr} :
    callSuffixes (fuel + 1) trailing value
        (⟨.punctuation .dot, dot⟩ :: ⟨.identifier method, name⟩ :: later) =
      (do
        let (args, close) ← arguments fuel
        callSuffixes fuel trailing (.methodCall value method args (value.span.merge close)) :
        Parser Expr) later := rfl

theorem argumentsTail_open (opens : Lookahead.currentClass later ≠ .punctuation .rightParen) :
    argumentsTail (fuel + 1) later =
      (do
        let first ← expression fuel true
        skipNewlines
        if (← peek) = .punctuation .comma then
          advance
          skipNewlines
          let (more, close) ← argumentsTail fuel
          return (first :: more, close)
        else
          let close ← expect (.punctuation .rightParen)
          return ([first], close) : Parser (List Expr × Span)) later := by
  rw [argumentsTail]
  change (if Lookahead.currentClass later = .punctuation .rightParen then _ else _ :
    Parser (List Expr × Span)) later = _
  rw [if_neg opens]

theorem statements_open (goesOn : Lookahead.endsStatements inBlock later = false) :
    statements (fuel + 1) inBlock later =
      (do
        let first ← statement fuel
        skipNewlines
        let more ← statements fuel inBlock
        return first :: more : Parser (List Stmt)) later := by
  rw [statements]
  change (if Lookahead.currentClass later = .endOfInput ∨
    (inBlock ∧ Lookahead.currentClass later = .punctuation .rightBrace) then _ else _ :
    Parser (List Stmt)) later = _
  rw [if_neg (by simpa [Lookahead.endsStatements] using goesOn)]

theorem primary_if (opens : Lookahead.currentClass later = .keyword .ifWord) :
    primary (fuel + 1) trailing later = conditional fuel trailing later := by
  obtain ⟨span, more, rfl⟩ := exists_keyword opens
  rfl

theorem primary_brace (opens : Lookahead.currentClass later = .punctuation .leftBrace) :
    primary (fuel + 1) trailing later =
      (do
        let body ← block fuel false
        return .block body body.span : Parser Expr) later := by
  obtain ⟨span, more, rfl⟩ := exists_punctuation opens
  rfl

theorem primary_function (opens : Lookahead.currentClass later = .punctuation .leftParen)
    (head : Lookahead.isFunctionHead later = true) :
    primary (fuel + 1) trailing later = function fuel trailing later := by
  obtain ⟨span, more, rfl⟩ := exists_punctuation opens
  simp [primary, bind, StateT.bind, Except.bind, get, getThe, MonadStateOf.get, StateT.get, pure,
    Except.pure, head]

theorem primary_paren (opens : Lookahead.currentClass later = .punctuation .leftParen)
    (plain : Lookahead.isFunctionHead later = false) :
    primary (fuel + 1) trailing later = parenthesized fuel later := by
  obtain ⟨span, more, rfl⟩ := exists_punctuation opens
  simp [primary, bind, StateT.bind, Except.bind, get, getThe, MonadStateOf.get, StateT.get, pure,
    Except.pure, plain]

theorem statement_let : statement (fuel + 1) (⟨.keyword .letWord, start⟩ ::
      ⟨.identifier name, word⟩ :: ⟨.punctuation .assign, mark⟩ :: later) =
    (do
      let value ← expression fuel true
      return .declare name value (start.merge value.span) : Parser Stmt) later := rfl

theorem statement_assign :
    statement (fuel + 1) (⟨.identifier name, start⟩ :: ⟨.punctuation .assign, mark⟩ :: later) =
      (do
        let value ← expression fuel true
        return .assign name value (start.merge value.span) : Parser Stmt) later := rfl

theorem statement_for : statement (fuel + 1) (⟨.keyword .forWord, start⟩ ::
      ⟨.identifier binding, word⟩ :: ⟨.keyword .inWord, mark⟩ :: later) =
    (do
      let iterable ← expression fuel false
      let body ← block fuel false
      return .forEach binding iterable body (start.merge body.span) : Parser Stmt) later := rfl

theorem statement_plain (plain : Lookahead.startsAssignment later = false)
      (noLet : Lookahead.currentClass later ≠ .keyword .letWord)
      (noFor : Lookahead.currentClass later ≠ .keyword .forWord) :
    statement (fuel + 1) later =
      (do
        let value ← expression fuel true
        return .expr value value.span : Parser Stmt) later := by
  simp only [statement, bind, StateT.bind, Except.bind, get, getThe, MonadStateOf.get,
    StateT.get, pure, Except.pure]
  split
  · exact absurd rfl noLet
  · exact absurd rfl noFor
  · simp [Lookahead.startsAssignment] at plain
  · rfl

end Grammar

/-- What follows the first of some arguments. -/
theorem Goal.Agrees.argument (head : Spells (.expression true first) s old)
    (inserts : Inserts old new)
    (agrees : Agreeing (fun fuel => (do
      skipNewlines
      if (← peek) = .punctuation .comma then
        advance
        skipNewlines
        let (more, close) ← Grammar.argumentsTail fuel
        return (first :: more, close)
      else
        let close ← expect (.punctuation .rightParen)
        return ([first], close) : Parser (List Expr × Span))) old new) :
    Goal.argumentsTail.Agrees (s ++ old) (s ++ new) := by
  have opens tokens : Lookahead.currentClass (s ++ tokens) ≠ .punctuation .rightParen :=
    TokenClass.opensExpression.ne (head.first_class rfl tokens) rfl
  refine .step (fun _ => argumentsTail_open (opens _)) (fun _ => argumentsTail_open (opens _)) ?_
  exact .behind ⟨_, head.complete⟩ ⟨_, (head.inserts inserts rfl).complete⟩ agrees

/-- What follows the comma of an argument. -/
theorem Goal.Agrees.comma
    (head : Spells (.expression true first) s (n ++ ⟨.punctuation .comma, mark⟩ :: old))
    (newlines : Newlines n) (inserts : Inserts old new)
    (agrees : Agreeing (fun fuel => (do
      skipNewlines
      let (more, close) ← Grammar.argumentsTail fuel
      return (first :: more, close) : Parser (List Expr × Span))) old new) :
    Goal.argumentsTail.Agrees (s ++ (n ++ ⟨.punctuation .comma, mark⟩ :: old))
      (s ++ (n ++ ⟨.punctuation .comma, mark⟩ :: new)) := by
  have next tokens :
      Lookahead.currentClass (⟨.punctuation .comma, mark⟩ :: tokens) ≠ .newline := by
    simp [TokenKind.toClass]
  refine .argument head ((inserts.later _).append n) (.pass newlines (next _) (next _) ?_)
  refine .look rfl ?_
  simp only [Lookahead.currentClass_cons, TokenKind.toClass, if_true]
  exact .past rfl rfl agrees

/-- Newlines behind an `else` are a matter of what follows it. -/
theorem Goal.Agrees.conditional (agrees : (Goal.alternative trailing).Agrees old new)
    (inserts : Inserts old new)
    (condition : Spells (.expression false test) s
      (n ++ (t ++ (m ++ ⟨.keyword .elseWord, word⟩ :: old)))) (newlines : Newlines n)
    (branch : Spells (.blockOrExpression trailing false thenBranch) t
      (m ++ ⟨.keyword .elseWord, word⟩ :: old)) (newlines' : Newlines m) :
    (Goal.conditional trailing).Agrees
      (⟨.keyword .ifWord, start⟩ :: (s ++ (n ++ (t ++ (m ++ ⟨.keyword .elseWord, word⟩ :: old)))))
      (⟨.keyword .ifWord, start⟩ ::
        (s ++ (n ++ (t ++ (m ++ ⟨.keyword .elseWord, word⟩ :: new))))) := by
  have inserts' := (inserts.later ⟨.keyword .elseWord, word⟩).append m
  have next := branch.next_ne_newline rfl rfl
  refine .succ ?_
  simp only [Grammar.conditional]
  refine .past rfl rfl (.behind ⟨_, condition.complete⟩
    ⟨_, (condition.inserts ((inserts'.append t).append n) rfl).complete⟩ ?_)
  refine .pass newlines (next _) (next _) ?_
  refine .behind ⟨_, branch.complete⟩ ⟨_, (branch.inserts inserts' rfl).complete⟩ ?_
  refine .past (takeElse_ok.mpr (.inl ⟨rfl, _, _, newlines', rfl⟩))
    (takeElse_ok.mpr (.inl ⟨rfl, _, _, newlines', rfl⟩)) ?_
  simp only [if_true]
  exact .inside agrees

theorem Enters.agrees (enters : Enters goal s part old) (inserts : Inserts old new)
    (ahead : Lookahead.currentClass new = Lookahead.currentClass old)
    (admits : part.Admits new) (agrees : part.Agrees old new) :
    goal.Agrees (s ++ old) (s ++ new) := by
  cases enters with
  | expressionHead =>
    refine .succ ?_
    simp only [Grammar.expression]
    exact .inside agrees
  | expressionTail head =>
    refine .succ ?_
    simp only [Grammar.expression]
    exact .behind ⟨_, head.complete⟩ ⟨_, (head.inserts inserts rfl).complete⟩ agrees
  | operationsHead found =>
    exact .step (fun _ => operations_cons found) (fun _ => operations_cons found) (.inside agrees)
  | operationsTail found head =>
    exact .step (fun _ => operations_cons found) (fun _ => operations_cons found)
      (.behind ⟨_, head.complete⟩ ⟨_, (head.inserts inserts rfl).complete⟩ agrees)
  | callHead =>
    refine .succ ?_
    simp only [Grammar.call]
    exact .inside agrees
  | callTail head =>
    refine .succ ?_
    simp only [Grammar.call]
    exact .behind ⟨_, head.complete⟩ ⟨_, (head.inserts inserts rfl).complete⟩ agrees
  | suffixesCallHead opens =>
    exact .step (fun _ => callSuffixes_paren opens)
      (fun _ => callSuffixes_paren (ahead.trans opens)) (.inside agrees)
  | suffixesCallTail head =>
    have opens := fun tokens => beq_iff_eq.mp (head.first_class rfl tokens)
    exact .step (fun _ => callSuffixes_paren (opens _)) (fun _ => callSuffixes_paren (opens _))
      (.behind ⟨_, head.complete⟩ ⟨_, (head.inserts inserts rfl).complete⟩ agrees)
  | suffixesMethodHead =>
    exact .step (fun _ => callSuffixes_dot) (fun _ => callSuffixes_dot) (.inside agrees)
  | suffixesMethodTail head =>
    exact .step (fun _ => callSuffixes_dot) (fun _ => callSuffixes_dot)
      (.behind ⟨_, head.complete⟩ ⟨_, (head.inserts inserts rfl).complete⟩ agrees)
  | suffixesBlock isCall opens =>
    refine .succ ?_
    simp only [Grammar.callSuffixes]
    refine .look ahead ?_
    simp only [List.nil_append, opens, isCall, Bool.and_self, if_true]
    exact .inside agrees
  | arguments newlines next =>
    refine .succ ?_
    simp only [Grammar.arguments]
    exact .past rfl rfl (.pass newlines next (ahead ▸ next) agrees)
  | argumentsHead opens =>
    exact .step (fun _ => argumentsTail_open opens)
      (fun _ => argumentsTail_open (ahead ▸ opens)) (.inside agrees)
  | argumentsTail head newlines newlines' next =>
    simp only [List.append_assoc, List.cons_append]
    exact .comma head newlines (inserts.append _)
      (.pass newlines' next (ahead ▸ next) (.inside agrees))
  | primaryConditional opens =>
    exact .step (fun _ => primary_if opens) (fun _ => primary_if (ahead.trans opens)) agrees
  | primaryBlock opens =>
    exact .step (fun _ => primary_brace opens) (fun _ => primary_brace (ahead.trans opens))
      (.inside agrees)
  | primaryFunction opens head =>
    exact .step (fun _ => primary_function opens head)
      (fun _ => primary_function admits.1 admits.2) agrees
  | primaryParenthesized opens plain =>
    exact .step (fun _ => primary_paren opens plain) (fun _ => primary_paren (ahead.trans opens)
      (Lookahead.isFunctionHead_inserts inserts (ahead.trans opens) plain)) agrees
  | parenthesized newlines next =>
    refine .succ ?_
    simp only [Grammar.parenthesized]
    exact .past rfl rfl (.pass newlines next (ahead ▸ next) (.inside agrees))
  | function parameters newlines next =>
    refine .succ ?_
    simp only [Grammar.function, List.cons_append, List.append_assoc]
    exact .past rfl rfl (.past (parameters_ok parameters) (parameters_ok parameters)
      (.past rfl rfl (.past rfl rfl (.pass newlines next (ahead ▸ next) (.inside agrees)))))
  | braced opens =>
    refine .succ ?_
    simp only [Grammar.blockOrExpression]
    refine .look ahead ?_
    simp only [List.nil_append, opens, if_true]
    exact agrees
  | bare unbraced =>
    refine .succ ?_
    simp only [Grammar.blockOrExpression]
    refine .look ahead ?_
    simp only [List.nil_append, unbraced, if_false]
    exact .inside agrees
  | condition =>
    refine .succ ?_
    simp only [Grammar.conditional]
    exact .past rfl rfl (.inside agrees)
  | branch condition newlines next =>
    refine .succ ?_
    simp only [Grammar.conditional, List.cons_append, List.append_assoc]
    refine .past rfl rfl (.behind ⟨_, condition.complete⟩
      ⟨_, (condition.inserts (inserts.append _) rfl).complete⟩ ?_)
    exact .pass newlines next (ahead ▸ next) (.inside agrees)
  | otherwise condition newlines branch newlines' =>
    simpa using Goal.Agrees.conditional agrees inserts condition newlines branch newlines'
  | alternativeConditional opens =>
    refine .succ ?_
    simp only [Grammar.alternative]
    refine .look ahead ?_
    simp only [List.nil_append, opens, if_true]
    exact .inside agrees
  | alternative newlines next plain =>
    refine .succ ?_
    simp only [Grammar.alternative]
    refine .look (Inserts.currentClass_append ahead _) ?_
    simp only [plain, if_false]
    exact .pass newlines next (ahead ▸ next) agrees
  | block newlines next =>
    refine .succ ?_
    simp only [Grammar.block]
    exact .past rfl rfl (.pass newlines next (ahead ▸ next) (.inside agrees))
  | statementsHead goesOn =>
    exact .step (fun _ => statements_open goesOn) (fun _ => statements_open
      ((Lookahead.endsStatements_congr ahead).trans goesOn)) (.inside agrees)
  | statementsTail head newlines next =>
    have goesOn := head.goes_on
    simp only [List.append_assoc]
    refine .step (fun _ => statements_open (goesOn _ _)) (fun _ => statements_open (goesOn _ _)) ?_
    refine .behind ⟨_, head.complete⟩ ⟨_, (head.inserts (inserts.append _) rfl).complete⟩ ?_
    exact .pass newlines next (ahead ▸ next) (.inside agrees)
  | declare => exact .step (fun _ => statement_let) (fun _ => statement_let) (.inside agrees)
  | assign => exact .step (fun _ => statement_assign) (fun _ => statement_assign) (.inside agrees)
  | iterable => exact .step (fun _ => statement_for) (fun _ => statement_for) (.inside agrees)
  | body head =>
    exact .step (fun _ => statement_for) (fun _ => statement_for)
      (.behind ⟨_, head.complete⟩ ⟨_, (head.inserts inserts rfl).complete⟩ (.inside agrees))
  | expressionStatement plain noLet noFor =>
    exact .step (fun _ => statement_plain plain noLet noFor)
      (fun _ => statement_plain (Lookahead.startsAssignment_inserts inserts plain) (ahead ▸ noLet)
        (ahead ▸ noFor)) (.inside agrees)


/-- A goal that has entered another one has found all that admits it. -/
theorem Enters.admits_front (enters : Enters goal s part old) (new : List Token) :
    goal.Admits (s ++ new) := by
  cases enters with
  | function parameters =>
    simp only [List.cons_append, List.append_assoc]
    exact ⟨rfl, Lookahead.isFunctionHead_iff.mpr ⟨_, _, _, _, _, _, parameters, rfl⟩⟩
  | _ => trivial

theorem Enters.inserts (enters : Enters goal s part old) (inserts : Inserts old new)
    (ahead : Lookahead.currentClass new = Lookahead.currentClass old)
    (admits : part.Admits new) : Enters goal s part new := by
  cases enters with
  | expressionHead => exact .expressionHead
  | expressionTail head => exact .expressionTail (head.inserts inserts rfl)
  | operationsHead found => exact .operationsHead found
  | operationsTail found head => exact .operationsTail found (head.inserts inserts rfl)
  | callHead => exact .callHead
  | callTail head => exact .callTail (head.inserts inserts rfl)
  | suffixesCallHead opens => exact .suffixesCallHead (ahead.trans opens)
  | suffixesCallTail head => exact .suffixesCallTail (head.inserts inserts rfl)
  | suffixesMethodHead => exact .suffixesMethodHead
  | suffixesMethodTail head => exact .suffixesMethodTail (head.inserts inserts rfl)
  | suffixesBlock isCall opens => exact .suffixesBlock isCall (ahead.trans opens)
  | arguments newlines next => exact .arguments newlines (ahead ▸ next)
  | argumentsHead opens => exact .argumentsHead (ahead ▸ opens)
  | argumentsTail head newlines newlines' next =>
    exact .argumentsTail (head.inserts (((inserts.append _).later _).append _) rfl) newlines
      newlines' (ahead ▸ next)
  | primaryConditional opens => exact .primaryConditional (ahead.trans opens)
  | primaryBlock opens => exact .primaryBlock (ahead.trans opens)
  | primaryFunction => exact .primaryFunction admits.1 admits.2
  | primaryParenthesized opens plain =>
    exact .primaryParenthesized (ahead.trans opens)
      (Lookahead.isFunctionHead_inserts inserts (ahead.trans opens) plain)
  | parenthesized newlines next => exact .parenthesized newlines (ahead ▸ next)
  | function parameters newlines next => exact .function parameters newlines (ahead ▸ next)
  | braced opens => exact .braced (ahead.trans opens)
  | bare unbraced => exact .bare (ahead ▸ unbraced)
  | condition => exact .condition
  | branch condition newlines next =>
    exact .branch (condition.inserts (inserts.append _) rfl) newlines (ahead ▸ next)
  | @otherwise _ _ _ _ m _ _ _ _ word condition newlines branch newlines' =>
    have inserts' := (inserts.later ⟨.keyword .elseWord, word⟩).append m
    exact .otherwise (condition.inserts ((inserts'.append _).append _) rfl) newlines
      (branch.inserts inserts' rfl) newlines'
  | alternativeConditional opens => exact .alternativeConditional (ahead.trans opens)
  | alternative newlines next plain =>
    exact .alternative newlines (ahead ▸ next) (by rwa [Inserts.currentClass_append ahead])
  | block newlines next => exact .block newlines (ahead ▸ next)
  | statementsHead goesOn =>
    exact .statementsHead ((Lookahead.endsStatements_congr ahead).trans goesOn)
  | statementsTail head newlines next =>
    exact .statementsTail (head.inserts (inserts.append _) rfl) newlines (ahead ▸ next)
  | declare => exact .declare
  | assign => exact .assign
  | iterable => exact .iterable
  | body head => exact .body (head.inserts inserts rfl)
  | expressionStatement plain noLet noFor =>
    exact .expressionStatement (Lookahead.startsAssignment_inserts inserts plain) (ahead ▸ noLet)
      (ahead ▸ noFor)

/-- Agreement on the statements of a program is agreement on the program. -/
theorem Program.ofTokens_of_agrees {program : Program} (newlines : Newlines n)
    (next : Lookahead.currentClass old ≠ .newline)
    (agrees : (Goal.statements false).Agrees old new)
    (parsed : Program.ofTokens (n ++ old) = .ok program) :
    Program.ofTokens (n ++ new) = .ok program := by
  obtain ⟨m, s, rest, newlines', split, spelled⟩ := Program.ofTokens_eq_ok_iff.mp parsed
  have same := congrArg (List.dropWhile Lookahead.isNewline) split
  rw [newlines.dropWhile_append next, newlines'.dropWhile_append spelled.statements_next] at same
  subst same
  obtain ⟨bound, holds⟩ := agrees
  have reads := holds (bound + (8 * s.length + _)) (Nat.le_add_right ..) program.statements rest
    (spelled.complete _ (Nat.le_add_left ..))
  obtain ⟨t, rfl, spelled'⟩ :=
    Recognition.sound _ (.statements false program.statements) _ _ reads
  exact Program.ofTokens_eq_ok_iff.mpr ⟨n, t, rest, newlines, rfl, spelled'⟩

/-- Wherever the parser comes, a newline more further on is no hindrance to come there, and
if the goal is read there as before, then so is the program. -/
theorem Reaches.inserts (reached : Reaches tokens goal old) :
    ∃ taken, tokens = taken ++ old ∧ ∀ new, Inserts old new →
      Lookahead.currentClass new = Lookahead.currentClass old → goal.Admits new →
      Reaches (taken ++ new) goal new ∧ (goal.Agrees old new → ∀ program,
        Program.ofTokens tokens = .ok program → Program.ofTokens (taken ++ new) = .ok program) := by
  induction reached with
  | start =>
    obtain ⟨n, later, newlines, split, same, next⟩ := exists_newlines_next tokens
    rw [same]
    refine ⟨n, split, fun new _ ahead _ => ⟨?_, fun agrees program parsed => ?_⟩⟩
    · have reached : Reaches (n ++ new) (.statements false) _ := .start
      rwa [newlines.dropWhile_append (ahead ▸ next)] at reached
    · exact Program.ofTokens_of_agrees newlines next agrees (split ▸ parsed)
  | @enter goal s later part _ enters ih =>
    obtain ⟨taken, rfl, further⟩ := ih
    refine ⟨taken ++ s, (List.append_assoc ..).symm, fun new inserts ahead admits => ?_⟩
    obtain ⟨reached, kept⟩ := further (s ++ new) (inserts.append s)
      (Inserts.currentClass_append ahead s) (enters.admits_front new)
    rw [List.append_assoc]
    exact ⟨.enter reached (enters.inserts inserts ahead admits),
      fun agrees => kept (enters.agrees inserts ahead admits agrees)⟩

end PixelScript
