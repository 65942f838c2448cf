import PixelScript.Proofs.Syntax.Completeness

/-! Phrases keep their spelling where something else follows. The parser looks past a
phrase only to see whether it goes on, so other tokens may follow as long as they offer
no way to go on that the old ones did not. The end of input offers none at all, and it
also allows a block to be taken where a condition would have left it. -/
namespace PixelScript

/-- Where the old tokens end a phrase, the new ones do. The phrase may have been read in
a condition (`trailing` is false) and be read outside of one now. -/
structure Yields (trailing trailing' : Bool) (old new : List Token) : Prop where
  raised : trailing = true → trailing' = true
  operator : (Lookahead.current old).kind.operator? = none →
    (Lookahead.current new).kind.operator? = none
  suffixes : ∀ value, Lookahead.endsSuffixes trailing value old = true →
    Lookahead.endsSuffixes trailing' value new = true
  noElse : Lookahead.elseAhead old = false → Lookahead.elseAhead new = false
  arrow : Lookahead.currentClass new = .punctuation .arrow →
    Lookahead.currentClass old = .punctuation .arrow
  assign : Lookahead.currentClass new = .punctuation .assign →
    Lookahead.currentClass old = .punctuation .assign

namespace Yields

theorem of_end (raised : trailing = true → trailing' = true)
    (ends : Lookahead.currentClass new = .endOfInput) : Yields trailing trailing' old new where
  raised := raised
  operator _ := by
    unfold Lookahead.currentClass at ends
    cases kind : (Lookahead.current new).kind <;> simp_all [TokenKind.toClass, TokenKind.operator?]
  suffixes value _ := by simp [Lookahead.endsSuffixes, ends]
  noElse _ := by
    cases new with
    | nil => rfl
    | cons token more =>
      have other : Lookahead.isNewline token = false := by
        simp only [Lookahead.currentClass_cons] at ends
        simp [Lookahead.isNewline, ends]
      simp only [Lookahead.currentClass_cons] at ends
      simp [Lookahead.elseAhead, other, ends]
  arrow absurd := by simp [ends] at absurd
  assign absurd := by simp [ends] at absurd

/-- One token decides everything, unless it is a newline. -/
theorem cons (token : Token) (solid : token.kind.toClass ≠ .newline)
    (raised : trailing = true → trailing' = true)
    (brace : trailing = trailing' ∨ token.kind.toClass ≠ .punctuation .leftBrace) :
    Yields trailing trailing' (token :: old) (token :: new) where
  raised := raised
  operator ends := ends
  suffixes value ends := by
    obtain rfl | other := brace
    · exact ends
    · unfold Lookahead.endsSuffixes at ends ⊢
      simp only [Lookahead.currentClass_cons] at ends ⊢
      split <;> simp_all
  noElse none := by
    have other : Lookahead.isNewline token = false := by simp [Lookahead.isNewline, solid]
    simpa [Lookahead.elseAhead, other] using none
  arrow same := same
  assign same := same

/-- A mark that stays where it is hides what follows it. -/
theorem punctuation (mark : Punctuation) (span : Span) :
    Yields trailing trailing (⟨.punctuation mark, span⟩ :: old)
      (⟨.punctuation mark, span⟩ :: new) :=
  cons _ (by simp [TokenKind.toClass]) id (.inl rfl)

theorem newlines (between : Newlines n) (yields : Yields trailing trailing' old new) :
    Yields trailing trailing' (n ++ old) (n ++ new) := by
  cases n with
  | nil => exact yields
  | cons token more =>
    have first := between.head
    have skip : ∀ tokens, Lookahead.elseAhead (token :: more ++ tokens) =
        Lookahead.elseAhead tokens := by
      intro tokens
      simp only [Lookahead.elseAhead]
      rw [List.dropWhile_append_of_pos between]
    refine ⟨yields.raised, fun ends => ends, fun value _ => ?_, ?_, fun same => same,
      fun same => same⟩
    · simp [Lookahead.endsSuffixes, first]
    · rw [skip, skip]
      exact yields.noElse

/-- A phrase that goes on into `s` ends before the same token as before. -/
theorem segment {phrase : Phrase} (starts : phrase.Starts s)
    (solid : phrase.first .newline = false)
    (brace : trailing = trailing' ∨ phrase.first (.punctuation .leftBrace) = false)
    (yields : Yields trailing trailing' old new) :
    Yields trailing trailing' (s ++ old) (s ++ new) := by
  obtain ⟨_, rfl⟩ | ⟨token, more, rfl, first⟩ := starts
  · exact yields
  · refine cons token ?_ yields.raised ?_
    · intro same
      rw [same, solid] at first
      contradiction
    · refine brace.imp id fun other => ?_
      intro same
      rw [same, other] at first
      contradiction

/-- Nothing behind a phrase is seen from before it. -/
theorem across (spelled : Spells phrase s rest) (solid : phrase.isNullable = false)
    (opens : phrase.first .newline = false) :
    Yields trailing trailing (s ++ old) (s ++ new) := by
  obtain ⟨token, more, rfl, first⟩ := spelled.exists_first solid
  refine cons token ?_ id (.inl rfl)
  intro same
  rw [same, opens] at first
  contradiction

end Yields

namespace Lookahead

theorem isParameterList_of_yields (last : s.getLast? = some ⟨.punctuation .rightParen, close⟩)
    (arrow : currentClass new = .punctuation .arrow → currentClass old = .punctuation .arrow)
    (found : isParameterList (s ++ new) = true) : isParameterList (s ++ old) = true := by
  obtain ⟨params, p, close', mark, rest, names, same⟩ := isParameterList_iff.mp found
  induction names generalizing s with
  | one =>
    match s, last, same with
    | [_], last, same => simp_all
    | [_, _], _, same =>
      simp only [List.cons_append, List.nil_append, List.cons.injEq] at same
      obtain ⟨rfl, rfl, rfl⟩ := same
      obtain ⟨span, more, rfl⟩ := exists_punctuation (arrow rfl)
      rfl
    | _ :: _ :: _ :: _, _, same =>
      simp only [List.cons_append, List.nil_append, List.cons.injEq] at same
      obtain ⟨rfl, rfl, rfl, _⟩ := same
      rfl
  | more later ih =>
    match s, last, same with
    | [_], last, same => simp_all
    | [_, _], last, same => simp_all
    | _ :: _ :: token :: more, last, same =>
      simp only [List.cons_append, List.cons.injEq] at same
      obtain ⟨rfl, rfl, tail⟩ := same
      have found : isParameterList (token :: more ++ new) = true :=
        isParameterList_iff.mpr ⟨_, _, _, _, _, later, tail⟩
      exact ih (s := token :: more) (by simpa using last) found tail

/-- A closing parenthesis ends the lookahead for a function, but for the arrow. -/
theorem isFunctionHead_of_yields (last : s.getLast? = some ⟨.punctuation .rightParen, close⟩)
    (solid : 1 < s.length)
    (arrow : currentClass new = .punctuation .arrow → currentClass old = .punctuation .arrow)
    (plain : isFunctionHead (s ++ old) = false) : isFunctionHead (s ++ new) = false := by
  rw [← Bool.not_eq_true] at plain ⊢
  intro found
  apply plain
  obtain ⟨first, params, p, close', mark, rest, parameters, same⟩ := isFunctionHead_iff.mp found
  cases parameters with
  | none =>
    match s, solid, same with
    | [_, _], _, same =>
      simp only [List.cons_append, List.nil_append, List.cons.injEq] at same
      obtain ⟨rfl, rfl, rfl⟩ := same
      obtain ⟨span, more, rfl⟩ := exists_punctuation (arrow rfl)
      rfl
    | _ :: _ :: _ :: _, _, same =>
      simp only [List.cons_append, List.nil_append, List.cons.injEq] at same
      obtain ⟨rfl, rfl, rfl, _⟩ := same
      rfl
  | some names =>
    match s, last, solid, same with
    | first :: token :: more, last, _, same =>
      simp only [List.cons_append, List.cons.injEq] at same
      obtain ⟨rfl, tail⟩ := same
      have listed : isParameterList (token :: more ++ new) = true :=
        isParameterList_iff.mpr ⟨_, _, _, _, _, names, tail⟩
      have listed' := isParameterList_of_yields (by simpa using last) arrow listed
      obtain ⟨params', p', close, mark', rest', names', same⟩ := isParameterList_iff.mp listed'
      exact isFunctionHead_iff.mpr
        ⟨first, params', p', close, mark', rest', .some names', congrArg (first :: ·) same⟩

theorem startsAssignment_iff : startsAssignment tokens = true ↔ ∃ name span mark more,
    tokens = ⟨.identifier name, span⟩ :: ⟨.punctuation .assign, mark⟩ :: more := by
  unfold startsAssignment
  split <;> simp_all

theorem startsAssignment_of_yields (solid : 0 < s.length)
    (assign : currentClass new = .punctuation .assign → currentClass old = .punctuation .assign)
    (plain : startsAssignment (s ++ old) = false) : startsAssignment (s ++ new) = false := by
  rw [← Bool.not_eq_true] at plain ⊢
  intro found
  apply plain
  obtain ⟨name, span, mark, more, same⟩ := startsAssignment_iff.mp found
  match s, solid, same with
  | [_], _, same =>
    simp only [List.cons_append, List.nil_append, List.cons.injEq] at same
    obtain ⟨rfl, rfl⟩ := same
    obtain ⟨span, more, rfl⟩ := exists_punctuation (assign rfl)
    rfl
  | _ :: _ :: _, _, same =>
    simp only [List.cons_append, List.cons.injEq] at same
    obtain ⟨rfl, rfl, _⟩ := same
    rfl

end Lookahead

namespace Phrase

/-- The phrase as it is outside of a condition, or in one. -/
def withTrailing (trailing : Bool) : Phrase → Phrase
  | expression _ result => expression trailing result
  | operations _ left result => operations trailing left result
  | call _ result => call trailing result
  | suffixes _ value result => suffixes trailing value result
  | primary _ result => primary trailing result
  | function _ result => function trailing result
  | blockOrExpression _ isFunctionBody result => blockOrExpression trailing isFunctionBody result
  | conditional _ result => conditional trailing result
  | alternative _ result => alternative trailing result
  | phrase => phrase

/-- Whether the phrase keeps its spelling, as one of `trailing'`, where `new` follows it in
the place of `old`. What ends with a bracket of its own always does. -/
def Keeps (trailing' : Bool) (old new : List Token) : Phrase → Prop
  | expression trailing _ | operations trailing .. | call trailing _ | suffixes trailing ..
  | primary trailing _ | function trailing _ | blockOrExpression trailing ..
  | conditional trailing _ | alternative trailing _ => Yields trailing trailing' old new
  | statements inBlock _ => Yields true true old new ∧
      (Lookahead.endsStatements inBlock old = true → Lookahead.endsStatements inBlock new = true)
  | statement .. => Yields true true old new
  | arguments .. | argumentsTail .. | parenthesized .. | block .. => True

end Phrase

theorem Spells.getLast_parenthesized (spelled : Spells (.parenthesized result) s rest) :
    ∃ close, s.getLast? = some ⟨.punctuation .rightParen, close⟩ := by
  cases spelled with
  | @parenthesized _ _ _ _ _ _ close =>
    refine ⟨close, ?_⟩
    simp only [← List.append_assoc, ← List.cons_append]
    exact List.getLast?_concat

theorem Spells.length_parenthesized (spelled : Spells (.parenthesized result) s rest) :
    1 < s.length := by
  cases spelled with
  | parenthesized =>
    simp only [List.length_cons, List.length_append]
    omega

theorem Spells.keeps (spelled : Spells phrase s old) (kept : phrase.Keeps trailing' old new) :
    Spells (phrase.withTrailing trailing') s new := by
  induction spelled generalizing new trailing' with
  | expression head tail ihHead ihTail =>
    exact .expression (ihHead (.segment tail.starts rfl (.inr rfl) kept)) (ihTail kept)
  | operationsEnd ends => exact .operationsEnd (kept.operator ends)
  | operationsMore found head tail ihHead ihTail =>
    exact .operationsMore found (ihHead (.segment tail.starts rfl (.inr rfl) kept)) (ihTail kept)
  | @call trailing first s t rest result head tail ihHead ihTail =>
    refine .call (ihHead (.segment tail.starts (by cases trailing <;> rfl) ?_ kept)) (ihTail kept)
    cases trailing with
    | true => exact .inl (kept.raised rfl).symm
    | false => exact .inr rfl
  | suffixesEnd ends => exact .suffixesEnd (kept.suffixes _ ends)
  | suffixesCall head tail ihHead ihTail =>
    exact .suffixesCall (@ihHead true _ trivial) (ihTail kept)
  | suffixesMethod head tail ihHead ihTail =>
    exact .suffixesMethod (@ihHead true _ trivial) (ihTail kept)
  | suffixesBlock isCall body ih =>
    obtain rfl := kept.raised rfl
    exact .suffixesBlock isCall (@ih true _ trivial)
  | arguments newlines tail ih => exact .arguments newlines (@ih true _ trivial)
  | argumentsNone => exact .argumentsNone
  | argumentsLast head newlines ih =>
    exact .argumentsLast (ih (.newlines newlines (.punctuation _ _))) newlines
  | argumentsMore head newlines newlines' tail ihHead ihTail =>
    exact .argumentsMore (ihHead (.newlines newlines (.punctuation _ _))) newlines newlines'
      (@ihTail true _ trivial)
  | number => exact .number
  | string => exact .string
  | trueWord => exact .trueWord
  | falseWord => exact .falseWord
  | nullWord => exact .nullWord
  | identifier => exact .identifier
  | primaryConditional inner ih => exact .primaryConditional (ih kept)
  | primaryBlock inner ih => exact .primaryBlock (@ih true _ trivial)
  | primaryFunction inner ih => exact .primaryFunction (ih kept)
  | primaryParenthesized inner plain ih =>
    obtain ⟨close, last⟩ := inner.getLast_parenthesized
    exact .primaryParenthesized (@ih true _ trivial)
      (Lookahead.isFunctionHead_of_yields last inner.length_parenthesized kept.arrow plain)
  | parenthesized newlines inner newlines' ih =>
    exact .parenthesized newlines (ih (.newlines newlines' (.punctuation _ _))) newlines'
  | function parameters newlines inner ih => exact .function parameters newlines (ih kept)
  | braced inner ih => exact .braced (@ih true _ trivial)
  | bare inner unbraced ih => exact .bare (ih kept) unbraced
  | conditional condition newlines branch noElse ihCondition ihBranch =>
    exact .conditional (ihCondition (.newlines newlines (.across branch rfl rfl))) newlines
      (ihBranch kept) (kept.noElse noElse)
  | conditionalElse condition newlines branch newlines' other ihCondition ihBranch ihOther =>
    refine .conditionalElse (ihCondition (.newlines newlines (.across branch rfl rfl))) newlines
      (ihBranch (.newlines newlines' (.cons _ ?_ kept.raised (.inr ?_)))) newlines' (ihOther kept)
    · simp [TokenKind.toClass]
    · simp [TokenKind.toClass]
  | alternativeConditional inner ih => exact .alternativeConditional (ih kept)
  | alternative newlines inner plain ih => exact .alternative newlines (ih kept) plain
  | block newlines inner ih =>
    exact .block newlines (@ih true _ ⟨.punctuation _ _, fun ends => ends⟩)
  | statementsEnd ends => exact .statementsEnd (kept.2 ends)
  | statementsMore head newlines tail ihHead ihTail =>
    refine .statementsMore (@ihHead true _ (.newlines newlines ?_)) newlines (@ihTail true _ kept)
    exact .segment tail.starts rfl (.inl rfl) kept.1
  | declare inner ih => exact .declare (ih kept)
  | assign inner ih => exact .assign (ih kept)
  | forEach head tail ihHead ihTail =>
    exact .forEach (ihHead (.across tail rfl rfl)) (@ihTail true _ trivial)
  | expressionStatement inner plain ih =>
    exact .expressionStatement (ih kept)
      (Lookahead.startsAssignment_of_yields (inner.length_pos rfl) kept.assign plain)

end PixelScript
