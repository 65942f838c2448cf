import PixelScript.Proofs.Syntax.Progress
import PixelScript.Proofs.Syntax.Writing

/-! What the parser has taken before it fails can be completed. Every production that waits
is given the shortest end that it can have, from the innermost to the outermost: `null`
for an operand, a bracket for an open one. The phrases in front, which are complete, keep
their spelling, because the end that is given offers no way to go on with them. -/
namespace PixelScript
open Grammar
open Writing

/-- The tokens before which every phrase ends. A brace is one only in a condition. -/
def TokenClass.closes (trailing : Bool) : TokenClass → Bool
  | keyword .nullWord | punctuation .rightParen | punctuation .rightBrace | endOfInput => true
  | punctuation .leftBrace => !trailing
  | _ => false

/-- Every phrase ends before these tokens. -/
def Closing (trailing : Bool) (tokens : List Token) : Prop :=
  (Lookahead.currentClass tokens).closes trailing = true

namespace Closing

theorem yields (closing : Closing trailing new) (old : List Token) :
    Yields trailing trailing old new where
  raised := id
  operator _ := by
    unfold Closing Lookahead.currentClass at closing
    cases kind : (Lookahead.current new).kind <;>
      simp_all [TokenKind.toClass, TokenKind.operator?, TokenClass.closes]
  suffixes value _ := by
    unfold Closing at closing
    unfold Lookahead.endsSuffixes
    split <;> simp_all [TokenClass.closes]
  noElse _ := by
    cases new with
    | nil => rfl
    | cons token more =>
      simp only [Closing, Lookahead.currentClass_cons] at closing
      have other : Lookahead.isNewline token = false := by
        refine Bool.eq_false_iff.mpr fun newline => ?_
        simp only [Lookahead.isNewline, beq_iff_eq] at newline
        simp [newline, TokenClass.closes] at closing
      refine Bool.eq_false_iff.mpr fun found => ?_
      simp only [Lookahead.elseAhead, List.dropWhile_cons, other] at found
      simp_all [TokenClass.closes]
  arrow same := by simp [Closing, same, TokenClass.closes] at closing
  assign same := by simp [Closing, same, TokenClass.closes] at closing

theorem operator (closing : Closing trailing tokens) :
    (Lookahead.current tokens).kind.operator? = none :=
  (closing.yields []).operator rfl

theorem suffixes (closing : Closing trailing tokens) (value : Expr) :
    Lookahead.endsSuffixes trailing value tokens = true :=
  (closing.yields []).suffixes value rfl

theorem noElse (closing : Closing trailing tokens) : Lookahead.elseAhead tokens = false :=
  (closing.yields []).noElse rfl

theorem ne_arrow (closing : Closing trailing tokens) :
    Lookahead.currentClass tokens ≠ .punctuation .arrow := by
  intro same
  simp [Closing, same, TokenClass.closes] at closing

theorem ne_assign (closing : Closing trailing tokens) :
    Lookahead.currentClass tokens ≠ .punctuation .assign := by
  intro same
  simp [Closing, same, TokenClass.closes] at closing

end Closing

theorem Spells.primary_name (spelled : Spells (.primary trailing value) s rest)
    (named : s = ⟨.identifier text, span⟩ :: more) : more = [] := by
  have other : ∀ {phrase : Phrase}, phrase.isNullable = false →
      phrase.first .identifier = false → Spells phrase s rest → more = [] := by
    intro phrase solid none inner
    have first := inner.first_class solid []
    rw [named] at first
    exact absurd first (by simpa [TokenKind.toClass] using none)
  cases spelled with
  | number | string | trueWord | falseWord | nullWord => cases named
  | identifier => exact (List.cons.inj named).2.symm
  | primaryConditional inner | primaryBlock inner | primaryFunction inner
  | primaryParenthesized inner _ => exact other rfl rfl inner

/-- A phrase that may be empty is so before a token that it cannot start with. -/
theorem Phrase.Starts.eq_nil {phrase : Phrase} (starts : phrase.Starts s) (rest : List Token)
    (none : phrase.first (Lookahead.currentClass (s ++ rest)) = false) : s = [] := by
  obtain ⟨_, rfl⟩ | ⟨token, more, rfl, first⟩ := starts
  · rfl
  · exact absurd first (by simpa using none)

/-- A name before a token that starts no suffix and is no name is all of an expression. -/
theorem Spells.expression_name (spelled : Spells (.expression trailing value) s rest)
    (named : s = ⟨.identifier text, span⟩ :: more) (next : more ++ rest = token :: later)
    (noSuffix : ∀ first result, (Phrase.suffixes trailing first result).first
      token.kind.toClass = false)
    (noName : token.kind.toClass ≠ .identifier) : more = [] := by
  cases spelled with
  | @expression _ first front back _ _ head tail =>
    cases head with
    | @call _ operand primary suffixes _ _ head middle =>
      obtain ⟨_, more, rfl, _⟩ := head.exists_first rfl
      obtain ⟨rfl, rfl⟩ := List.cons.inj named
      obtain rfl := head.primary_name rfl
      change suffixes ++ back ++ rest = token :: later at next
      have none : suffixes = [] := by
        apply middle.starts.eq_nil (back ++ rest)
        rw [← List.append_assoc, next]
        exact noSuffix _ _
      subst none
      change back ++ rest = token :: later at next
      have none : back = [] := by
        apply tail.starts.eq_nil rest
        simpa [next, Phrase.first] using noName
      subst none
      rfl

theorem Newlines.eq_nil (newlines : Newlines n) (same : n ++ rest = token :: later)
    (solid : token.kind.toClass ≠ .newline) : n = [] := by
  cases n with
  | nil => rfl
  | cons =>
    obtain ⟨rfl, _⟩ := List.cons.inj same
    exact absurd newlines.head solid

/-- A name in parentheses, before a token that cannot go on with it, is alone there. -/
theorem Spells.enclosed_name {close : Span} {rest : List Token}
    (inner : Spells (.expression true value) s (m ++ ⟨.punctuation .rightParen, close⟩ :: rest))
    (newlines : Newlines n) (newlines' : Newlines m)
    (same : n ++ (s ++ (m ++ ⟨.punctuation .rightParen, close⟩ :: rest)) =
      ⟨.identifier text, place⟩ :: token :: later)
    (noSuffix : ∀ first result, (Phrase.suffixes true first result).first
      token.kind.toClass = false)
    (noName : token.kind.toClass ≠ .identifier) (solid : token.kind.toClass ≠ .newline) :
    token :: later = ⟨.punctuation .rightParen, close⟩ :: rest := by
  obtain rfl := newlines.eq_nil same (by simp [TokenKind.toClass])
  obtain ⟨first, more, rfl, _⟩ := inner.exists_first rfl
  obtain ⟨rfl, behind⟩ := List.cons.inj same
  obtain rfl := inner.expression_name rfl behind noSuffix noName
  obtain rfl := newlines'.eq_nil behind solid
  exact behind.symm

/-- What is read in parentheses is no function head, unless an arrow follows. -/
theorem Spells.parenthesized_plain (spelled : Spells (.parenthesized result) s rest)
    (next : Lookahead.currentClass rest ≠ .punctuation .arrow) :
    Lookahead.isFunctionHead (s ++ rest) = false := by
  refine Bool.eq_false_iff.mpr fun found => ?_
  obtain ⟨_, params, p, close, arrow, later, parameters, same⟩ :=
    Lookahead.isFunctionHead_iff.mp found
  cases spelled with
  | parenthesized newlines inner newlines' =>
    simp only [List.cons_append, List.append_assoc, List.nil_append, List.cons.injEq] at same
    obtain ⟨_, same⟩ := same
    cases parameters with
    | none =>
      obtain ⟨token, more, rfl, opens⟩ := inner.exists_first rfl
      obtain rfl := newlines.eq_nil same (by simp [TokenKind.toClass])
      obtain ⟨rfl, _⟩ := List.cons.inj same
      contradiction
    | some names =>
      cases names with
      | one =>
        have closes := inner.enclosed_name newlines newlines' same (fun _ _ => rfl)
          (by simp [TokenKind.toClass]) (by simp [TokenKind.toClass])
        obtain ⟨_, rfl⟩ := List.cons.inj closes
        exact next rfl
      | more =>
        -- a second parameter needs a comma where the parentheses close
        have closes := inner.enclosed_name newlines newlines' same (fun _ _ => rfl)
          (by simp [TokenKind.toClass]) (by simp [TokenKind.toClass])
        cases (List.cons.inj closes).1

namespace Goal

/-- The token that a goal always starts with, where there is one. -/
def opener? : Goal → Option TokenClass
  | arguments | parenthesized | function _ => some (.punctuation .leftParen)
  | block _ => some (.punctuation .leftBrace)
  | conditional _ => some (.keyword .ifWord)
  | _ => none

/-- Some phrase of the goal is spelled. -/
def Spelled (s rest : List Token) : Goal → Prop
  | expression trailing => ∃ result, Spells (.expression trailing result) s rest
  | operations trailing left => ∃ result, Spells (.operations trailing left result) s rest
  | call trailing => ∃ result, Spells (.call trailing result) s rest
  | suffixes trailing value => ∃ result, Spells (.suffixes trailing value result) s rest
  | arguments => ∃ args close, Spells (.arguments args close) s rest
  | argumentsTail => ∃ args close, Spells (.argumentsTail args close) s rest
  | primary trailing => ∃ result, Spells (.primary trailing result) s rest
  | parenthesized => ∃ result, Spells (.parenthesized result) s rest
  | function trailing => ∃ result, Spells (.function trailing result) s rest
  | blockOrExpression trailing isFunctionBody =>
    ∃ result, Spells (.blockOrExpression trailing isFunctionBody result) s rest
  | conditional trailing => ∃ result, Spells (.conditional trailing result) s rest
  | alternative trailing => ∃ result, Spells (.alternative trailing result) s rest
  | block isFunctionBody => ∃ result, Spells (.block isFunctionBody result) s rest
  | statements inBlock => ∃ result, Spells (.statements inBlock result) s rest
  | statement => ∃ result, Spells (.statement result) s rest

/-- Where a phrase of the goal may end, whatever it is. -/
def Closes (after : List Token) : Goal → Prop
  | expression trailing | operations trailing _ | call trailing | suffixes trailing _
  | primary trailing | function trailing | blockOrExpression trailing _ | conditional trailing
  | alternative trailing => Closing trailing after
  | statement => Closing true after
  | statements inBlock => Lookahead.endsStatements inBlock after = true
  | arguments | argumentsTail | parenthesized | block _ => True

end Goal

/-- With `more` behind them, the tokens that a goal has taken spell it. Where it has taken
none, `more` starts with an operand, so that nothing in front of the goal can go on. -/
structure Completes (goal : Goal) (s more : List Token) : Prop where
  inside : Inside more
  leads : s = [] → goal.opener? = none → ∃ later, more = word .nullWord :: later
  spelled : ∀ after, goal.Closes after → goal.Spelled (s ++ more) after

/-- A goal that starts with the next token takes it before it fails. -/
theorem Fails.taken (fails : Fails goal s rest expected) (opener : goal.opener? = some first)
    (opens : Lookahead.currentClass (s ++ rest) = first) :
    ∃ token more, s = token :: more ∧ token.kind.toClass = first := by
  cases s with
  | cons token more => exact ⟨token, more, rfl, opens⟩
  | nil =>
    generalize empty : ([] : List Token) = s at fails
    cases fails with
    | here stops =>
      cases stops with
      | arguments other | parenthesized other | conditional other | block other =>
        exact absurd (opens.trans (Option.some.inj opener).symm) other
      | parenthesizedClose | blockClose => cases empty
      | _ => cases opener
    | inside enters =>
      cases enters with
      | arguments | parenthesized | function | condition | branch | otherwise | block => cases empty
      | _ => cases opener

theorem Closing.of_ends (ends : Lookahead.endsStatements inBlock tokens = true) :
    Closing true tokens := by
  simp only [Lookahead.endsStatements, Bool.or_eq_true, Bool.and_eq_true, beq_iff_eq] at ends
  obtain same | ⟨_, same⟩ := ends <;> simp [Closing, same, TokenClass.closes]

/-- Before what follows newlines and closes, a phrase in front of them ends as it did. -/
theorem Closing.behind (closing : Closing trailing new) (newlines : Newlines n) :
    Yields trailing trailing (n ++ old) (n ++ new) :=
  .newlines newlines (closing.yields _)

theorem Closing.nullWord : Closing trailing (word .nullWord :: after) := rfl

theorem Closing.rightParen : Closing trailing (⟨.punctuation .rightParen, span⟩ :: after) := rfl

theorem Closing.rightBrace : Closing trailing (⟨.punctuation .rightBrace, span⟩ :: after) := rfl

theorem Closing.leftBrace : Closing false (⟨.punctuation .leftBrace, span⟩ :: after) := rfl

theorem Spells.null (closing : Closing trailing after) :
    Spells (.expression trailing (.null (.point 0))) [word .nullWord] after :=
  .expression_of_primary .nullWord (closing.suffixes _) closing.operator

theorem Spells.braces (isFunctionBody : Bool) (after : List Token) :
    Spells (.block isFunctionBody (.mk [] isFunctionBody ((Span.point 0).merge (.point 0))))
      [mark .leftBrace, mark .rightBrace] after :=
  .block (n := []) (s := []) .nil (.statementsEnd rfl)

/-- In front of a block, a condition or an iterable ends. -/
theorem Spells.closing_of_block (spelled : Spells (.block isFunctionBody body) s rest) :
    Closing false (s ++ rest) := by
  cases spelled
  rfl

theorem Spells.parens (after : List Token) :
    Spells (.arguments [] (.point 0)) [mark .leftParen, mark .rightParen] after :=
  .arguments (n := []) .nil .argumentsNone

theorem Spells.ne_nil (spelled : Spells phrase s rest) (solid : phrase.isNullable = false) :
    s ≠ [] :=
  List.ne_nil_of_length_pos (spelled.length_pos solid)

theorem Inside.of_all (others : tokens.all (·.kind.toClass != .endOfInput) = true) :
    Inside tokens := by
  intro token member isEnd
  have other := List.all_eq_true.mp others token member
  rw [isEnd] at other
  contradiction

/-- A goal that misses a token can have it, with the shortest end behind it. -/
theorem Stops.completes (stops : Stops goal s rest expected) : ∃ more, Completes goal s more := by
  cases stops with
  | method =>
    refine ⟨[name "m", mark .leftParen, mark .rightParen], .of_all rfl, by simp,
      fun after closing => ?_⟩
    exact ⟨_, .suffixesMethod (t := []) (.parens _) (.suffixesEnd (closing.suffixes _))⟩
  | arguments =>
    refine ⟨[mark .leftParen, mark .rightParen], .of_all rfl, by simp [Goal.opener?],
      fun after _ => ?_⟩
    exact ⟨_, _, .parens _⟩
  | argumentsClose head newlines =>
    refine ⟨[mark .rightParen], .of_all rfl, fun empty => ?_, fun after _ => ?_⟩
    · exact absurd (List.append_eq_nil_iff.mp empty).1 (head.ne_nil rfl)
    · rw [List.append_assoc]
      exact ⟨_, _, .argumentsLast (head.keeps (Closing.rightParen.behind newlines)) newlines⟩
  | primary =>
    exact ⟨[word .nullWord], .of_all rfl, fun _ _ => ⟨[], rfl⟩, fun _ _ => ⟨_, .nullWord⟩⟩
  | parenthesized =>
    refine ⟨[mark .leftParen, word .nullWord, mark .rightParen], .of_all rfl,
      by simp [Goal.opener?], fun after _ => ?_⟩
    exact ⟨_, .parenthesized (n := []) (m := []) .nil (.null .rightParen) .nil⟩
  | parenthesizedClose newlines inner newlines' =>
    refine ⟨[mark .rightParen], .of_all rfl, by simp, fun after _ => ?_⟩
    simp only [List.cons_append, List.append_assoc]
    exact ⟨_, .parenthesized newlines (inner.keeps (Closing.rightParen.behind newlines')) newlines'⟩
  | conditional =>
    refine ⟨[word .ifWord, word .nullWord, mark .leftBrace, mark .rightBrace], .of_all rfl,
      by simp [Goal.opener?], fun after closing => ?_⟩
    exact ⟨_, .conditional (s := [_]) (n := []) (.null .leftBrace) .nil (.braced (.braces _ _))
      closing.noElse⟩
  | block =>
    refine ⟨[mark .leftBrace, mark .rightBrace], .of_all rfl, by simp [Goal.opener?],
      fun after _ => ?_⟩
    exact ⟨_, .braces _ _⟩
  | blockClose newlines inner =>
    refine ⟨[mark .rightBrace], .of_all rfl, by simp, fun after _ => ?_⟩
    simp only [List.cons_append, List.append_assoc]
    exact ⟨_, .block newlines
      (@Spells.keeps _ _ _ true _ inner ⟨Closing.rightBrace.yields _, fun _ => rfl⟩)⟩
  | declareName =>
    refine ⟨[name "x", mark .assign, word .nullWord], .of_all rfl, by simp,
      fun after closing => ?_⟩
    exact ⟨_, .declare (.null closing)⟩
  | declareMark =>
    refine ⟨[mark .assign, word .nullWord], .of_all rfl, by simp, fun after closing => ?_⟩
    exact ⟨_, .declare (.null closing)⟩
  | forEachName =>
    refine ⟨[name "x", word .inWord, word .nullWord, mark .leftBrace, mark .rightBrace],
      .of_all rfl, by simp, fun after _ => ?_⟩
    exact ⟨_, .forEach (s := [_]) (.null .leftBrace) (.braces _ _)⟩
  | forEachWord =>
    refine ⟨[word .inWord, word .nullWord, mark .leftBrace, mark .rightBrace], .of_all rfl,
      by simp, fun after _ => ?_⟩
    exact ⟨_, .forEach (s := [_]) (.null .leftBrace) (.braces _ _)⟩

/-- What fails behind a call or an operand has taken the token that makes it go on. -/
theorem Fails.suffixes_first (fails : Fails (.suffixes trailing value) s rest expected) :
    ∃ token more, s = token :: more ∧ token.kind.toClass ≠ .newline := by
  cases fails with
  | here stops =>
    cases stops with
    | method => exact ⟨_, _, rfl, by simp [TokenKind.toClass]⟩
  | inside enters within =>
    cases enters with
    | suffixesCallHead opens | suffixesBlock _ opens =>
      obtain ⟨token, more, rfl, same⟩ := within.taken rfl opens
      exact ⟨token, more, rfl, by simp [same]⟩
    | suffixesCallTail head =>
      obtain ⟨token, more, rfl, first⟩ := head.exists_first rfl
      refine ⟨token, _, rfl, ?_⟩
      simp only [Phrase.first, beq_iff_eq] at first
      simp [first]
    | suffixesMethodHead | suffixesMethodTail => exact ⟨_, _, rfl, by simp [TokenKind.toClass]⟩

theorem Fails.operations_first (fails : Fails (.operations trailing left) s rest expected) :
    ∃ token more, s = token :: more ∧ token.kind.toClass ≠ .newline := by
  cases fails with
  | here stops => cases stops
  | inside enters =>
    cases enters with
    | operationsHead found | operationsTail found =>
      exact ⟨_, _, rfl, by simp [operator_class found]⟩

/-- The end of a part, with some tokens behind it, ends the goal that waits for it. -/
theorem Completes.around (completes : Completes part t more) (extra : List Token)
    (inside : Inside extra)
    (opens : s ++ t = [] → goal.opener? = none → part.opener? = none)
    (spelled : ∀ after, goal.Closes after → goal.Spelled (s ++ (t ++ more ++ extra)) after) :
    ∃ more, Completes goal (s ++ t) more := by
  refine ⟨more ++ extra, completes.inside.append inside, ?_, fun after closes => ?_⟩
  · intro empty plain
    obtain ⟨later, rfl⟩ := completes.leads (List.append_eq_nil_iff.mp empty).2 (opens empty plain)
    exact ⟨later ++ extra, rfl⟩
  · simpa only [List.append_assoc] using spelled after closes

/-- In front of what a goal takes and its end, a phrase ends as it did. -/
theorem Completes.yields (completes : Completes part t more) (plain : part.opener? = none)
    (next : Lookahead.currentClass (t ++ rest) ≠ .newline) :
    Yields trailing trailing (t ++ rest) (t ++ more ++ after) := by
  cases t with
  | cons token later => exact .cons token next id (.inl rfl)
  | nil =>
    obtain ⟨later, rfl⟩ := completes.leads rfl plain
    exact Closing.nullWord.yields _

/-- What a goal takes and the end of it start with another token than the given one, unless
its tokens did so before. -/
theorem Completes.first_ne (completes : Completes part t more) (plain : part.opener? = none)
    (other : Lookahead.currentClass (t ++ rest) ≠ first) (operand : first ≠ .keyword .nullWord) :
    Lookahead.currentClass (t ++ more) ≠ first := by
  cases t with
  | cons token later => exact other
  | nil =>
    obtain ⟨later, rfl⟩ := completes.leads rfl plain
    exact operand.symm

/-- What a goal has taken can be completed if what it has entered can be. -/
theorem Enters.completes (enters : Enters goal s part (t ++ rest))
    (within : Fails part t rest expected) (completes : Completes part t more) :
    ∃ more, Completes goal (s ++ t) more := by
  cases enters with
  | expressionHead =>
    refine completes.around [] .nil (fun _ _ => rfl) fun after closing => ?_
    obtain ⟨first, head⟩ := completes.spelled after closing
    exact ⟨_, .expression (s := t ++ more) (t := []) head (.operationsEnd closing.operator)⟩
  | expressionTail head =>
    -- the operand in front still ends where it did: its operator has been taken
    refine completes.around [] .nil (fun _ _ => rfl) fun after closing => ?_
    obtain ⟨token, later, rfl, solid⟩ := within.operations_first
    obtain ⟨result, tail⟩ := completes.spelled after closing
    rw [List.append_nil]
    exact ⟨_, .expression (head.keeps (completes.yields rfl solid)) tail⟩
  | operationsHead found =>
    refine completes.around [] .nil (by simp) fun after closing => ?_
    obtain ⟨right, head⟩ := completes.spelled after closing
    exact ⟨_, .operationsMore (t := []) found head (.operationsEnd closing.operator)⟩
  | operationsTail found head =>
    refine completes.around [] .nil (by simp) fun after closing => ?_
    obtain ⟨token, later, rfl, solid⟩ := within.operations_first
    obtain ⟨result, tail⟩ := completes.spelled after closing
    rw [List.append_nil]
    exact ⟨_, .operationsMore found (head.keeps (completes.yields rfl solid)) tail⟩
  | callHead =>
    refine completes.around [] .nil (fun _ _ => rfl) fun after closing => ?_
    obtain ⟨first, head⟩ := completes.spelled after closing
    exact ⟨_, .call (s := t ++ more) (t := []) head (.suffixesEnd (closing.suffixes _))⟩
  | callTail head =>
    refine completes.around [] .nil (fun _ _ => rfl) fun after closing => ?_
    obtain ⟨token, later, rfl, solid⟩ := within.suffixes_first
    obtain ⟨result, tail⟩ := completes.spelled after closing
    rw [List.append_nil]
    exact ⟨_, .call (head.keeps (completes.yields rfl solid)) tail⟩
  | suffixesCallHead opens =>
    obtain ⟨token, later, rfl, _⟩ := within.taken rfl opens
    refine completes.around [] .nil (by simp) fun after closing => ?_
    obtain ⟨args, close, head⟩ := completes.spelled after trivial
    exact ⟨_, .suffixesCall (s := token :: later ++ more) (t := []) head
      (.suffixesEnd (closing.suffixes _))⟩
  | suffixesCallTail head =>
    refine completes.around [] .nil (fun _ _ => rfl) fun after closing => ?_
    obtain ⟨result, tail⟩ := completes.spelled after closing
    rw [List.append_nil]
    exact ⟨_, .suffixesCall (@Spells.keeps _ _ _ true _ head trivial) tail⟩
  | suffixesMethodHead =>
    refine completes.around [] .nil (by simp) fun after closing => ?_
    obtain ⟨args, close, head⟩ := completes.spelled after trivial
    exact ⟨_, .suffixesMethod (t := []) head (.suffixesEnd (closing.suffixes _))⟩
  | suffixesMethodTail head =>
    refine completes.around [] .nil (fun _ _ => rfl) fun after closing => ?_
    obtain ⟨result, tail⟩ := completes.spelled after closing
    rw [List.append_nil]
    exact ⟨_, .suffixesMethod (@Spells.keeps _ _ _ true _ head trivial) tail⟩
  | suffixesBlock isCall opens =>
    obtain ⟨token, later, rfl, _⟩ := within.taken rfl opens
    refine completes.around [] .nil (by simp) fun after closing => ?_
    obtain ⟨body, inner⟩ := completes.spelled after trivial
    rw [List.append_nil]
    exact ⟨_, .suffixesBlock isCall inner⟩
  | arguments newlines =>
    refine completes.around [] .nil (by simp) fun after closing => ?_
    obtain ⟨args, close, inner⟩ := completes.spelled after trivial
    rw [List.append_nil]
    exact ⟨_, _, .arguments newlines inner⟩
  | argumentsHead =>
    refine completes.around [mark .rightParen] (.of_all rfl) (fun _ _ => rfl) fun after _ => ?_
    obtain ⟨first, head⟩ := completes.spelled _ Closing.rightParen
    exact ⟨_, _, .argumentsLast (n := []) head .nil⟩
  | argumentsTail head newlines newlines' =>
    refine completes.around [] .nil (fun _ _ => rfl) fun after _ => ?_
    obtain ⟨args, close, tail⟩ := completes.spelled after trivial
    simp only [List.append_nil, List.append_assoc, List.cons_append] at tail ⊢
    exact ⟨_, _, .argumentsMore (head.keeps (.newlines newlines (.punctuation _ _))) newlines
      newlines' tail⟩
  | primaryConditional opens =>
    obtain ⟨token, later, rfl, _⟩ := within.taken rfl opens
    refine completes.around [] .nil (by simp) fun after closing => ?_
    obtain ⟨result, inner⟩ := completes.spelled after closing
    rw [List.append_nil]
    exact ⟨_, .primaryConditional inner⟩
  | primaryBlock opens =>
    obtain ⟨token, later, rfl, _⟩ := within.taken rfl opens
    refine completes.around [] .nil (by simp) fun after _ => ?_
    obtain ⟨body, inner⟩ := completes.spelled after trivial
    rw [List.append_nil]
    exact ⟨_, .primaryBlock inner⟩
  | primaryFunction opens =>
    obtain ⟨token, later, rfl, _⟩ := within.taken rfl opens
    refine completes.around [] .nil (by simp) fun after closing => ?_
    obtain ⟨result, inner⟩ := completes.spelled after closing
    rw [List.append_nil]
    exact ⟨_, .primaryFunction inner⟩
  | primaryParenthesized opens =>
    obtain ⟨token, later, rfl, _⟩ := within.taken rfl opens
    refine completes.around [] .nil (by simp) fun after closing => ?_
    obtain ⟨result, inner⟩ := completes.spelled after trivial
    rw [List.append_nil]
    exact ⟨_, .primaryParenthesized inner (inner.parenthesized_plain (Closing.ne_arrow closing))⟩
  | parenthesized newlines =>
    refine completes.around [mark .rightParen] (.of_all rfl) (by simp) fun after _ => ?_
    obtain ⟨value, inner⟩ := completes.spelled _ Closing.rightParen
    exact ⟨_, .parenthesized (m := []) newlines inner .nil⟩
  | function parameters newlines =>
    refine completes.around [] .nil (by simp) fun after closing => ?_
    obtain ⟨body, inner⟩ := completes.spelled after closing
    simp only [List.append_nil, List.append_assoc, List.cons_append] at inner ⊢
    exact ⟨_, .function parameters newlines inner⟩
  | braced opens =>
    obtain ⟨token, later, rfl, _⟩ := within.taken rfl opens
    refine completes.around [] .nil (by simp) fun after _ => ?_
    obtain ⟨body, inner⟩ := completes.spelled after trivial
    rw [List.append_nil]
    exact ⟨_, .braced inner⟩
  | bare unbraced =>
    refine completes.around [] .nil (fun _ _ => rfl) fun after closing => ?_
    obtain ⟨value, inner⟩ := completes.spelled after closing
    rw [List.append_nil]
    exact ⟨_, .bare inner (completes.first_ne rfl unbraced (by simp))⟩
  | condition =>
    refine completes.around [mark .leftBrace, mark .rightBrace] (.of_all rfl) (by simp)
      fun after closing => ?_
    obtain ⟨test, inner⟩ := completes.spelled _ Closing.leftBrace
    exact ⟨_, .conditional (s := t ++ more) (n := []) inner .nil (.braced (.braces _ _))
      (Closing.noElse closing)⟩
  | branch condition newlines next =>
    refine completes.around [] .nil (by simp) fun after closing => ?_
    obtain ⟨body, inner⟩ := completes.spelled after closing
    rw [List.append_nil, List.cons_append, List.append_assoc]
    exact ⟨_, .conditional (condition.keeps (.newlines newlines (completes.yields rfl next)))
      newlines inner (Closing.noElse closing)⟩
  | otherwise condition newlines branch newlines' =>
    refine completes.around [] .nil (by simp) fun after closing => ?_
    obtain ⟨body, inner⟩ := completes.spelled after closing
    simp only [List.append_nil, List.append_assoc, List.cons_append, List.nil_append] at inner ⊢
    refine ⟨_, .conditionalElse (condition.keeps (.newlines newlines (.across branch rfl rfl)))
      newlines (branch.keeps (.newlines newlines' (.cons _ ?_ id (.inl rfl)))) newlines' inner⟩
    simp [TokenKind.toClass]
  | alternativeConditional opens =>
    obtain ⟨token, later, rfl, _⟩ := within.taken rfl opens
    refine completes.around [] .nil (by simp) fun after closing => ?_
    obtain ⟨nested, inner⟩ := completes.spelled after closing
    rw [List.append_nil]
    exact ⟨_, .alternativeConditional inner⟩
  | alternative newlines next plain =>
    refine completes.around [] .nil (fun _ _ => rfl) fun after closing => ?_
    obtain ⟨body, inner⟩ := completes.spelled after closing
    rw [List.append_nil]
    refine ⟨_, .alternative newlines inner ?_⟩
    cases s with
    | nil => exact completes.first_ne rfl plain (by simp)
    | cons => exact plain
  | block newlines next =>
    refine completes.around [mark .rightBrace] (.of_all rfl) (by simp) fun after _ => ?_
    obtain ⟨body, inner⟩ := completes.spelled (mark .rightBrace :: after) rfl
    rw [List.cons_append]
    exact ⟨_, .block newlines inner⟩
  | statementsHead =>
    refine completes.around [] .nil (fun _ _ => rfl) fun after ends => ?_
    obtain ⟨first, head⟩ := completes.spelled after (.of_ends ends)
    exact ⟨_, .statementsMore (s := t ++ more) (n := []) (t := []) head .nil (.statementsEnd ends)⟩
  | statementsTail head newlines next =>
    refine completes.around [] .nil (fun _ _ => rfl) fun after ends => ?_
    obtain ⟨later, tail⟩ := completes.spelled after ends
    rw [List.append_nil, List.append_assoc]
    exact ⟨_, .statementsMore (@Spells.keeps _ _ _ true _ head
      (.newlines newlines (completes.yields rfl next))) newlines tail⟩
  | declare =>
    refine completes.around [] .nil (by simp) fun after closing => ?_
    obtain ⟨value, inner⟩ := completes.spelled after closing
    rw [List.append_nil]
    exact ⟨_, .declare inner⟩
  | assign =>
    refine completes.around [] .nil (by simp) fun after closing => ?_
    obtain ⟨value, inner⟩ := completes.spelled after closing
    rw [List.append_nil]
    exact ⟨_, .assign inner⟩
  | iterable =>
    refine completes.around [mark .leftBrace, mark .rightBrace] (.of_all rfl) (by simp)
      fun after _ => ?_
    obtain ⟨value, inner⟩ := completes.spelled _ Closing.leftBrace
    exact ⟨_, .forEach (s := t ++ more) inner (.braces _ _)⟩
  | body head =>
    refine completes.around [] .nil (by simp) fun after _ => ?_
    obtain ⟨block, inner⟩ := completes.spelled after trivial
    rw [List.append_nil]
    exact ⟨_, .forEach (head.keeps (inner.closing_of_block.yields _)) inner⟩
  | expressionStatement =>
    refine completes.around [] .nil (fun _ _ => rfl) fun after closing => ?_
    obtain ⟨value, inner⟩ := completes.spelled after closing
    rw [List.append_nil]
    exact ⟨_, .expressionStatement inner (Lookahead.startsAssignment_append (inner.length_pos rfl)
      inner.expression_plain (Closing.ne_assign closing))⟩

/-- Whatever the parser has taken before it fails can be completed. -/
theorem Fails.completes (fails : Fails goal s rest expected) : ∃ more, Completes goal s more := by
  induction fails with
  | here stops => exact stops.completes
  | inside enters within ih =>
    obtain ⟨more, completes⟩ := ih
    exact enters.completes within completes

/-- Syntax errors stand at the end of a viable beginning. Where the parser refuses tokens
that end with an end of input, it has failed at one of them: the error names this token and
has its span, and the tokens before it begin a program that is accepted. -/
theorem Program.ofTokens_viable (tokens front : List Token) (finish : Token)
    (whole : tokens = front ++ [finish]) (isEnd : finish.kind = .endOfInput) (error : SyntaxError)
    (failed : Program.ofTokens tokens = .error error) :
    ∃ k token expected, tokens[k]? = some token ∧
      Grammar.program (fuelFor tokens) tokens = .error ⟨expected, tokens.drop k⟩ ∧
      error = .unexpectedToken expected token.kind.description token.span ∧
      ∃ more, Inside more ∧ ∀ finish', finish'.kind = .endOfInput →
        ∃ program, Program.ofTokens (tokens.take k ++ (more ++ [finish'])) = .ok program := by
  have ended : Ended tokens := .inr ⟨front, finish, isEnd, whole⟩
  have solid : tokens ≠ [] := by simp [whole]
  obtain ⟨⟨expected, rest⟩, refused, rfl⟩ := Program.ofTokens_eq_error_iff.mp failed
  obtain ⟨n, s, newlines, split, _, fails⟩ := (Grammar.program_eq_error_iff le_rfl).mp refused
  obtain ⟨more, completes⟩ := fails.completes
  rw [← List.append_assoc] at split
  have inside := newlines.inside.append fails.taken_inside
  obtain ⟨token, found, named⟩ := ended.stopped solid split inside
  obtain ⟨_, taken, rfl⟩ := ended.place split inside
  refine ⟨(n ++ s).length, token, expected, found, refused, named expected, more,
    completes.inside, fun finish' isEnd' => ?_⟩
  obtain ⟨body, spelled⟩ := completes.spelled [finish']
    (by simp [Goal.Closes, Lookahead.endsStatements, isEnd', TokenKind.toClass])
  refine ⟨⟨body⟩, Program.ofTokens_eq_ok_iff.mpr ⟨n, s ++ more, [finish'], newlines, ?_, spelled⟩⟩
  rw [taken]
  simp only [List.append_assoc]

/-- `(a, b)` without an arrow is refused at its comma, and `(a` can be completed. -/
theorem Program.ofTokens_viable_comma :
    ∃ tokens error, tokens = [mark .leftParen, name "a", mark .comma, name "b", mark .rightParen,
        .unplaced .endOfInput] ∧ Program.ofTokens tokens = .error error ∧
      ∃ k token expected, tokens[k]? = some token ∧
        Grammar.program (fuelFor tokens) tokens = .error ⟨expected, tokens.drop k⟩ ∧
        error = .unexpectedToken expected token.kind.description token.span ∧
        ∃ more, Inside more ∧ ∀ finish', finish'.kind = .endOfInput →
          ∃ program, Program.ofTokens (tokens.take k ++ (more ++ [finish'])) = .ok program := by
  have failed : Program.ofTokens ([mark .leftParen, name "a", mark .comma, name "b",
      mark .rightParen] ++ [.unplaced .endOfInput]) =
      .error (.unexpectedToken (TokenClass.punctuation .rightParen).name
        (TokenKind.punctuation .comma).description (.point 0)) := rfl
  exact ⟨_, _, rfl, failed, Program.ofTokens_viable _ _ _ rfl rfl _ failed⟩

end PixelScript
