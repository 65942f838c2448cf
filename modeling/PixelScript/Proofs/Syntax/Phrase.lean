import Mathlib
import PixelScript.Syntax.Grammar

/-! The grammar as a judgment. A phrase is a production together with the tree that it
gives, and `Spells` says which tokens spell it in front of which others. What follows
stays in the judgment, because the parser looks ahead: an operator or an `else` that
could be taken is taken. This is a view of the parser for proofs and not another one. -/
namespace PixelScript

/-- The productions of the grammar with what they give. -/
inductive Phrase where
  | expression (trailing : Bool) (result : Expr)
  | operations (trailing : Bool) (left result : Expr)
  | call (trailing : Bool) (result : Expr)
  | suffixes (trailing : Bool) (value result : Expr)
  | arguments (args : List Expr) (close : Span)
  | argumentsTail (args : List Expr) (close : Span)
  | primary (trailing : Bool) (result : Expr)
  | parenthesized (result : Expr)
  | function (trailing : Bool) (result : Expr)
  | blockOrExpression (trailing isFunctionBody : Bool) (result : Block)
  | conditional (trailing : Bool) (result : Expr)
  | alternative (trailing : Bool) (result : Block)
  | block (isFunctionBody : Bool) (result : Block)
  | statements (inBlock : Bool) (result : List Stmt)
  | statement (result : Stmt)

namespace Lookahead

/-- An identifier and `=`, which make a statement an assignment. -/
def startsAssignment : List Token → Bool
  | ⟨.identifier _, _⟩ :: ⟨.punctuation .assign, _⟩ :: _ => true
  | _ => false

/-- Whether `else` comes next, also on a later line. -/
def elseAhead (tokens : List Token) : Bool :=
  currentClass (tokens.dropWhile isNewline) == .keyword .elseWord

/-- Whether the suffixes of `value` end before these tokens. -/
def endsSuffixes (trailing : Bool) (value : Expr) (tokens : List Token) : Bool :=
  match currentClass tokens with
  | .punctuation .leftParen | .punctuation .dot => false
  | .punctuation .leftBrace => !(value.isCall && trailing)
  | _ => true

/-- Whether statements end here: at the end of input, or in a block at its brace. -/
def endsStatements (inBlock : Bool) (tokens : List Token) : Bool :=
  currentClass tokens == .endOfInput ||
    (inBlock && currentClass tokens == .punctuation .rightBrace)

end Lookahead

/-- At least one name, separated by commas. -/
inductive ParameterNames : List String → List Token → Prop
  | one : ParameterNames [name] [⟨.identifier name, span⟩]
  | more (later : ParameterNames names tokens) :
      ParameterNames (name :: names)
        (⟨.identifier name, span⟩ :: ⟨.punctuation .comma, comma⟩ :: tokens)

/-- The names between the parentheses of a function. -/
inductive Parameters : List String → List Token → Prop
  | none : Parameters [] []
  | some (names : ParameterNames params tokens) : Parameters params tokens

def Newlines (tokens : List Token) : Prop :=
  ∀ token ∈ tokens, Lookahead.isNewline token = true

/-- `Spells phrase segment rest`: the tokens of `segment` are what the phrase takes when
`rest` follows them. -/
inductive Spells : Phrase → List Token → List Token → Prop
  | expression (head : Spells (.call trailing first) s (t ++ rest))
      (tail : Spells (.operations trailing first result) t rest) :
      Spells (.expression trailing result) (s ++ t) rest
  | operationsEnd (ends : (Lookahead.current rest).kind.operator? = none) :
      Spells (.operations trailing left left) [] rest
  | operationsMore (operator? : token.kind.operator? = some operator)
      (head : Spells (.call trailing right) s (t ++ rest))
      (tail : Spells (.operations trailing
        (.operation operator left right (left.span.merge right.span)) result) t rest) :
      Spells (.operations trailing left result) (token :: (s ++ t)) rest
  | call (head : Spells (.primary trailing first) s (t ++ rest))
      (tail : Spells (.suffixes trailing first result) t rest) :
      Spells (.call trailing result) (s ++ t) rest
  | suffixesEnd (ends : Lookahead.endsSuffixes trailing value rest = true) :
      Spells (.suffixes trailing value value) [] rest
  | suffixesCall (head : Spells (.arguments args close) s (t ++ rest))
      (tail : Spells (.suffixes trailing (.call value args (value.span.merge close)) result)
        t rest) :
      Spells (.suffixes trailing value result) (s ++ t) rest
  | suffixesMethod (head : Spells (.arguments args close) s (t ++ rest))
      (tail : Spells (.suffixes trailing
        (.methodCall value method args (value.span.merge close)) result) t rest) :
      Spells (.suffixes trailing value result)
        (⟨.punctuation .dot, dot⟩ :: ⟨.identifier method, name⟩ :: (s ++ t)) rest
  | suffixesBlock (isCall : value.isCall = true) (body : Spells (.block true block) s rest) :
      Spells (.suffixes true value (value.withTrailingBlock block)) s rest
  | arguments (newlines : Newlines n) (tail : Spells (.argumentsTail args close) s rest) :
      Spells (.arguments args close) (⟨.punctuation .leftParen, start⟩ :: (n ++ s)) rest
  | argumentsNone : Spells (.argumentsTail [] close) [⟨.punctuation .rightParen, close⟩] rest
  | argumentsLast
      (head : Spells (.expression true first) s (n ++ ⟨.punctuation .rightParen, close⟩ :: rest))
      (newlines : Newlines n) :
      Spells (.argumentsTail [first] close) (s ++ (n ++ [⟨.punctuation .rightParen, close⟩])) rest
  | argumentsMore
      (head : Spells (.expression true first) s
        (n ++ ⟨.punctuation .comma, comma⟩ :: (m ++ (t ++ rest))))
      (newlines : Newlines n) (newlines' : Newlines m)
      (tail : Spells (.argumentsTail args close) t rest) :
      Spells (.argumentsTail (first :: args) close)
        (s ++ (n ++ ⟨.punctuation .comma, comma⟩ :: (m ++ t))) rest
  | number : Spells (.primary trailing (.number value span)) [⟨.number value, span⟩] rest
  | string : Spells (.primary trailing (.string text span)) [⟨.string text, span⟩] rest
  | trueWord : Spells (.primary trailing (.boolean true span)) [⟨.keyword .trueWord, span⟩] rest
  | falseWord : Spells (.primary trailing (.boolean false span)) [⟨.keyword .falseWord, span⟩] rest
  | nullWord : Spells (.primary trailing (.null span)) [⟨.keyword .nullWord, span⟩] rest
  | identifier :
      Spells (.primary trailing (.identifier name span)) [⟨.identifier name, span⟩] rest
  | primaryConditional (inner : Spells (.conditional trailing result) s rest) :
      Spells (.primary trailing result) s rest
  | primaryBlock (inner : Spells (.block false body) s rest) :
      Spells (.primary trailing (.block body body.span)) s rest
  | primaryFunction (inner : Spells (.function trailing result) s rest) :
      Spells (.primary trailing result) s rest
  | primaryParenthesized (inner : Spells (.parenthesized result) s rest)
      (plain : Lookahead.isFunctionHead (s ++ rest) = false) :
      Spells (.primary trailing result) s rest
  | parenthesized (newlines : Newlines n)
      (inner : Spells (.expression true value) s
        (m ++ ⟨.punctuation .rightParen, close⟩ :: rest)) (newlines' : Newlines m) :
      Spells (.parenthesized (value.withSpan (start.merge close)))
        (⟨.punctuation .leftParen, start⟩ ::
          (n ++ (s ++ (m ++ [⟨.punctuation .rightParen, close⟩])))) rest
  | function (parameters : Parameters params p) (newlines : Newlines n)
      (inner : Spells (.blockOrExpression trailing true body) s rest) :
      Spells (.function trailing (.function params body (start.merge body.span)))
        (⟨.punctuation .leftParen, start⟩ :: (p ++ ⟨.punctuation .rightParen, close⟩ ::
          ⟨.punctuation .arrow, arrow⟩ :: (n ++ s))) rest
  | braced (inner : Spells (.block isFunctionBody body) s rest) :
      Spells (.blockOrExpression trailing isFunctionBody body) s rest
  | bare (inner : Spells (.expression trailing value) s rest)
      (unbraced : Lookahead.currentClass s ≠ .punctuation .leftBrace) :
      Spells (.blockOrExpression trailing isFunctionBody (.ofExpr value isFunctionBody)) s rest
  | conditional (condition : Spells (.expression false test) s (n ++ (t ++ rest)))
      (newlines : Newlines n)
      (branch : Spells (.blockOrExpression trailing false thenBranch) t rest)
      (noElse : Lookahead.elseAhead rest = false) :
      Spells (.conditional trailing
          (.conditional test thenBranch none (start.merge thenBranch.span)))
        (⟨.keyword .ifWord, start⟩ :: (s ++ (n ++ t))) rest
  | conditionalElse
      (condition : Spells (.expression false test) s
        (n ++ (t ++ (m ++ ⟨.keyword .elseWord, word⟩ :: (u ++ rest)))))
      (newlines : Newlines n)
      (branch : Spells (.blockOrExpression trailing false thenBranch) t
        (m ++ ⟨.keyword .elseWord, word⟩ :: (u ++ rest)))
      (newlines' : Newlines m)
      (other : Spells (.alternative trailing elseBranch) u rest) :
      Spells (.conditional trailing
          (.conditional test thenBranch (some elseBranch) (start.merge elseBranch.span)))
        (⟨.keyword .ifWord, start⟩ ::
          (s ++ (n ++ (t ++ (m ++ ⟨.keyword .elseWord, word⟩ :: u))))) rest
  | alternativeConditional (inner : Spells (.conditional trailing nested) s rest) :
      Spells (.alternative trailing (.ofExpr nested false)) s rest
  | alternative (newlines : Newlines n)
      (inner : Spells (.blockOrExpression trailing false body) s rest)
      (plain : Lookahead.currentClass (n ++ s) ≠ .keyword .ifWord) :
      Spells (.alternative trailing body) (n ++ s) rest
  | block (newlines : Newlines n)
      (inner : Spells (.statements true body) s (⟨.punctuation .rightBrace, close⟩ :: rest)) :
      Spells (.block isFunctionBody (.mk body isFunctionBody (start.merge close)))
        (⟨.punctuation .leftBrace, start⟩ ::
          (n ++ (s ++ [⟨.punctuation .rightBrace, close⟩]))) rest
  | statementsEnd (ends : Lookahead.endsStatements inBlock rest = true) :
      Spells (.statements inBlock []) [] rest
  | statementsMore (head : Spells (.statement first) s (n ++ (t ++ rest)))
      (newlines : Newlines n) (tail : Spells (.statements inBlock more) t rest) :
      Spells (.statements inBlock (first :: more)) (s ++ (n ++ t)) rest
  | declare (inner : Spells (.expression true value) s rest) :
      Spells (.statement (.declare name value (start.merge value.span)))
        (⟨.keyword .letWord, start⟩ :: ⟨.identifier name, word⟩ ::
          ⟨.punctuation .assign, mark⟩ :: s) rest
  | assign (inner : Spells (.expression true value) s rest) :
      Spells (.statement (.assign name value (start.merge value.span)))
        (⟨.identifier name, start⟩ :: ⟨.punctuation .assign, mark⟩ :: s) rest
  | forEach (head : Spells (.expression false iterable) s (t ++ rest))
      (tail : Spells (.block false body) t rest) :
      Spells (.statement (.forEach binding iterable body (start.merge body.span)))
        (⟨.keyword .forWord, start⟩ :: ⟨.identifier binding, word⟩ ::
          ⟨.keyword .inWord, mark⟩ :: (s ++ t)) rest
  | expressionStatement (inner : Spells (.expression true value) s rest)
      (plain : Lookahead.startsAssignment (s ++ rest) = false) :
      Spells (.statement (.expr value value.span)) s rest

namespace Lookahead

@[simp] theorem current_cons (token : Token) (tokens : List Token) :
    current (token :: tokens) = token := rfl

@[simp] theorem currentClass_nil : currentClass [] = .endOfInput := rfl

@[simp] theorem currentClass_cons (token : Token) (tokens : List Token) :
    currentClass (token :: tokens) = token.kind.toClass := rfl

end Lookahead

@[simp] theorem Newlines.nil : Newlines [] := by
  intro token member
  contradiction

theorem Newlines.head (newlines : Newlines (token :: tokens)) :
    token.kind.toClass = .newline := by
  simpa [Lookahead.isNewline] using newlines token List.mem_cons_self

/-- Skipping newlines takes exactly those in front of another token. -/
theorem Newlines.dropWhile_append (newlines : Newlines n)
    (next : Lookahead.currentClass tokens ≠ .newline) :
    (n ++ tokens).dropWhile Lookahead.isNewline = tokens := by
  rw [List.dropWhile_append_of_pos newlines]
  cases tokens with
  | nil => rfl
  | cons token more =>
    have other : ¬ Lookahead.isNewline token = true := by simpa [Lookahead.isNewline] using next
    exact List.dropWhile_cons_of_neg other

theorem Newlines.dropWhile_cons (newlines : Newlines n) (token : Token) (more : List Token)
    (other : Lookahead.isNewline token = false) :
    (n ++ token :: more).dropWhile Lookahead.isNewline = token :: more :=
  newlines.dropWhile_append (by simpa [Lookahead.isNewline] using other)

/-- Every list of tokens is some newlines and what skipping them leaves. -/
theorem exists_newlines (tokens : List Token) :
    ∃ n, Newlines n ∧ tokens = n ++ tokens.dropWhile Lookahead.isNewline :=
  ⟨tokens.takeWhile Lookahead.isNewline, fun _ => List.all_eq_true.mp List.all_takeWhile _,
    List.takeWhile_append_dropWhile.symm⟩

/-- The tokens that an expression can start with. -/
def TokenClass.opensExpression : TokenClass → Bool
  | number | string | identifier | keyword .trueWord | keyword .falseWord | keyword .nullWord
  | keyword .ifWord | punctuation .leftBrace | punctuation .leftParen => true
  | _ => false

namespace Phrase

/-- The tokens that a phrase can start with. -/
def first : Phrase → TokenClass → Bool
  | expression .. | call .. | primary .. | blockOrExpression .. => TokenClass.opensExpression
  | operations .. => (· == .identifier)
  | suffixes trailing .. => fun next => next == .punctuation .leftParen ||
      next == .punctuation .dot || (trailing && next == .punctuation .leftBrace)
  | arguments .. | parenthesized .. | function .. => (· == .punctuation .leftParen)
  | argumentsTail .. => fun next => next == .punctuation .rightParen || next.opensExpression
  | conditional .. => (· == .keyword .ifWord)
  | alternative .. => fun next => next == .newline || next.opensExpression
  | block .. => (· == .punctuation .leftBrace)
  | statements .. | statement .. => fun next =>
      next == .keyword .letWord || next == .keyword .forWord || next.opensExpression

/-- Whether a phrase can be spelled by no token at all. -/
def isNullable : Phrase → Bool
  | operations .. | suffixes .. | statements .. => true
  | _ => false

/-- A segment that a phrase may have, by its first token. -/
def Starts (phrase : Phrase) (segment : List Token) : Prop :=
  (phrase.isNullable = true ∧ segment = []) ∨
    ∃ token more, segment = token :: more ∧ phrase.first token.kind.toClass = true

end Phrase

theorem operator_class {kind : TokenKind} (found : kind.operator? = some operator) :
    kind.toClass = .identifier := by
  cases kind <;> simp_all [TokenKind.operator?, TokenKind.toClass]

/-- A phrase that is spelled by more than one starts as the first of them does. -/
theorem Phrase.Starts.append {phrase part : Phrase} (starts : part.Starts s)
    (solid : part.isNullable = false)
    (includes : ∀ next, part.first next = true → phrase.first next = true) :
    phrase.Starts (s ++ t) := by
  obtain ⟨nullable, _⟩ | ⟨token, more, rfl, first⟩ := starts
  · simp [solid] at nullable
  · exact .inr ⟨token, more ++ t, rfl, includes _ first⟩

theorem Spells.starts (spelled : Spells phrase s rest) : phrase.Starts s := by
  induction spelled with
  | expression _ _ ih _ | call _ _ ih _ | statementsMore _ _ _ ih _ =>
    exact ih.append rfl fun _ first => first
  | suffixesCall _ _ ih _ => exact ih.append rfl fun _ first => by simp_all [Phrase.first]
  | argumentsLast _ _ ih | argumentsMore _ _ _ _ ih _ =>
    exact ih.append rfl fun _ first => by simp_all [Phrase.first]
  | operationsMore operator? =>
    exact .inr ⟨_, _, rfl, by simp [Phrase.first, operator_class operator?]⟩
  | operationsEnd | suffixesEnd | statementsEnd => exact .inl ⟨rfl, rfl⟩
  | suffixesMethod | arguments | argumentsNone | number | string | trueWord | falseWord | nullWord
  | identifier | parenthesized | function | conditional | conditionalElse | block | declare | assign
  | forEach => exact .inr ⟨_, _, rfl, rfl⟩
  | suffixesBlock _ _ ih | primaryConditional _ ih | primaryBlock _ ih | primaryFunction _ ih
  | primaryParenthesized _ _ ih | braced _ ih | bare _ _ ih | alternativeConditional _ ih
  | expressionStatement _ _ ih =>
    simpa using ih.append (t := []) rfl fun _ first => by
      simp_all [Phrase.first, TokenClass.opensExpression]
  | @alternative n _ _ _ _ newlines _ _ ih =>
    cases n with
    | nil => simpa using ih.append (t := []) rfl fun _ first => by simp_all [Phrase.first]
    | cons token more => exact .inr ⟨token, _, rfl, by simp [Phrase.first, newlines.head]⟩

theorem Spells.exists_first (spelled : Spells phrase s rest) (solid : phrase.isNullable = false) :
    ∃ token more, s = token :: more ∧ phrase.first token.kind.toClass = true := by
  obtain ⟨nullable, _⟩ | starts := spelled.starts
  · simp [solid] at nullable
  · exact starts

theorem Spells.length_pos (spelled : Spells phrase s rest) (solid : phrase.isNullable = false) :
    0 < s.length := by
  obtain ⟨token, more, rfl, _⟩ := spelled.exists_first solid
  exact Nat.succ_pos _

/-- The first token of a phrase does not depend on what follows the phrase. -/
theorem Spells.currentClass_append (spelled : Spells phrase s rest)
    (solid : phrase.isNullable = false) (tokens : List Token) :
    Lookahead.currentClass (s ++ tokens) = Lookahead.currentClass s := by
  obtain ⟨token, more, rfl, _⟩ := spelled.exists_first solid
  rfl

theorem Spells.first_class (spelled : Spells phrase s rest) (solid : phrase.isNullable = false)
    (tokens : List Token) : phrase.first (Lookahead.currentClass (s ++ tokens)) = true := by
  obtain ⟨token, more, rfl, first⟩ := spelled.exists_first solid
  exact first

end PixelScript
