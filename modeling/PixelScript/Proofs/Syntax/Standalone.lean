import PixelScript.Proofs.Syntax.Context
import PixelScript.Proofs.Syntax.Nodes

/-! Every statement and expression in a tree is spelled by tokens of its own, which spell
the same one as a statement with nothing behind it. Operators and call suffixes build
their trees from the left, so for these the induction carries what stands in front. -/
namespace PixelScript

namespace Lookahead

theorem startsAssignment_append (solid : 0 < s.length) (plain : startsAssignment s = false)
    (next : currentClass t ≠ .punctuation .assign) : startsAssignment (s ++ t) = false := by
  have before : startsAssignment (s ++ []) = false := by rwa [List.append_nil]
  exact startsAssignment_of_yields solid (fun same => absurd same next) before

theorem startsAssignment_eq_false (other : currentClass s ≠ .identifier) :
    startsAssignment s = false := by
  rw [← Bool.not_eq_true]
  intro found
  obtain ⟨name, span, mark, more, rfl⟩ := startsAssignment_iff.mp found
  exact other rfl

end Lookahead

theorem Phrase.Starts.next_ne_assign {phrase : Phrase} (starts : phrase.Starts s)
    (none : phrase.first (.punctuation .assign) = false) :
    Lookahead.currentClass s ≠ .punctuation .assign := by
  intro same
  obtain ⟨_, rfl⟩ | ⟨token, more, rfl, first⟩ := starts
  · simp at same
  · simp only [Lookahead.currentClass_cons] at same
    rw [same, none] at first
    contradiction

theorem Spells.primary_plain (spelled : Spells (.primary trailing result) s rest) :
    Lookahead.startsAssignment s = false := by
  have other : ∀ {phrase : Phrase} {s}, phrase.isNullable = false →
      phrase.first .identifier = false → Spells phrase s rest →
      Lookahead.startsAssignment s = false := by
    intro phrase s solid none inner
    obtain ⟨token, more, rfl, first⟩ := inner.exists_first solid
    apply Lookahead.startsAssignment_eq_false
    intro same
    simp only [Lookahead.currentClass_cons] at same
    rw [same, none] at first
    contradiction
  cases spelled with
  | number | string | trueWord | falseWord | nullWord | identifier => rfl
  | primaryConditional inner | primaryBlock inner | primaryFunction inner
  | primaryParenthesized inner _ => exact other rfl rfl inner

theorem Spells.call_plain (spelled : Spells (.call trailing result) s rest) :
    Lookahead.startsAssignment s = false := by
  cases spelled with
  | call head tail =>
    refine Lookahead.startsAssignment_append (head.length_pos rfl) head.primary_plain ?_
    exact tail.starts.next_ne_assign (by simp [Phrase.first])

/-- An expression is no assignment, wherever it stands. -/
theorem Spells.expression_plain (spelled : Spells (.expression trailing result) s rest) :
    Lookahead.startsAssignment s = false := by
  cases spelled with
  | expression head tail =>
    exact Lookahead.startsAssignment_append (head.length_pos rfl) head.call_plain
      (tail.starts.next_ne_assign rfl)

/-- The tokens spell the node as a statement that the end of input follows. -/
def Alone (part : List Token) (node : Node) : Prop :=
  ∀ rest, Lookahead.currentClass rest = .endOfInput → Spells (.statement node.toStmt) part rest

theorem Spells.statement_alone (spelled : Spells (.statement result) s rest) :
    Alone s (.stmt result) :=
  fun _ ends => @Spells.keeps _ _ _ true _ spelled (.of_end id ends)

theorem alone_of_expression (spelled : ∀ rest, Lookahead.currentClass rest = .endOfInput →
      Spells (.expression true value) s rest) : Alone s (.expr value) := by
  intro rest ends
  have inner := spelled rest ends
  refine .expressionStatement inner ?_
  refine Lookahead.startsAssignment_append (inner.length_pos rfl) inner.expression_plain ?_
  simp [ends]

theorem alone_of_call (spelled : ∀ rest, Lookahead.currentClass rest = .endOfInput →
      Spells (.call true value) s rest) : Alone s (.expr value) := by
  apply alone_of_expression
  intro rest ends
  have yields : Yields true true [] rest := .of_end id ends
  simpa using Spells.expression (t := []) (spelled rest ends) (.operationsEnd (yields.operator rfl))

theorem Spells.expression_alone (spelled : Spells (.expression trailing value) s rest) :
    Alone s (.expr value) :=
  alone_of_expression fun _ ends => spelled.keeps (.of_end (fun _ => rfl) ends)

theorem Spells.call_alone (spelled : Spells (.call trailing value) s rest) :
    Alone s (.expr value) :=
  alone_of_call fun _ ends => spelled.keeps (.of_end (fun _ => rfl) ends)

/-- Every node, but for blocks behind calls, stands alone in a part of the tokens. -/
def Located (s : List Token) (nodes : List Node) : Prop :=
  ∀ node ∈ nodes, node.isTrailingBlock = false →
    ∃ before part after, s = before ++ (part ++ after) ∧ Alone part node

namespace Located

theorem nil : Located s [] := by
  intro node member
  contradiction

theorem append (first : Located s nodes) (second : Located s nodes') :
    Located s (nodes ++ nodes') := by
  intro node member
  obtain member | member := List.mem_append.mp member
  · exact first node member
  · exact second node member

theorem cons (first : Located s [node]) (more : Located s nodes) : Located s (node :: nodes) :=
  first.append more

theorem left (located : Located s nodes) (after : List Token) : Located (s ++ after) nodes := by
  intro node member plain
  obtain ⟨front, part, back, rfl, alone⟩ := located node member plain
  exact ⟨front, part, back ++ after, by simp, alone⟩

theorem right (located : Located s nodes) (before : List Token) : Located (before ++ s) nodes := by
  intro node member plain
  obtain ⟨front, part, back, rfl, alone⟩ := located node member plain
  exact ⟨before ++ front, part, back, by simp, alone⟩

theorem skip (located : Located s nodes) (token : Token) : Located (token :: s) nodes :=
  located.right [token]

end Located

theorem Alone.located (alone : Alone s node) : Located s [node] := by
  intro other member _
  obtain rfl := List.mem_singleton.mp member
  exact ⟨[], s, [], by simp, alone⟩

/-- The tokens in front spell `left` up to the operators that follow it, whichever these
are, as long as they offer no more than those that did follow. -/
def OperandFront (trailing : Bool) (front : List Token) (left : Expr) (follow : List Token) :
    Prop :=
  ∀ s result rest, Yields trailing true follow (s ++ rest) →
    Spells (.operations true left result) s rest →
      Spells (.expression true result) (front ++ s) rest

/-- The same for the suffixes of a call. -/
def CalleeFront (trailing : Bool) (front : List Token) (value : Expr) (follow : List Token) :
    Prop :=
  ∀ s result rest, Yields trailing true follow (s ++ rest) →
    Spells (.suffixes true value result) s rest → Spells (.call true result) (front ++ s) rest

theorem OperandFront.of_call (head : Spells (.call trailing first) s follow) :
    OperandFront trailing s first follow :=
  fun _ _ _ yields tail => .expression (head.keeps yields) tail

theorem CalleeFront.of_primary (head : Spells (.primary trailing first) s follow) :
    CalleeFront trailing s first follow :=
  fun _ _ _ yields tail => .call (head.keeps yields) tail

theorem OperandFront.alone (spelled : OperandFront trailing front left follow) :
    Alone front (.expr left) := by
  apply alone_of_expression
  intro rest ends
  have yields : Yields trailing true follow rest := .of_end (fun _ => rfl) ends
  have yields' : Yields true true [] rest := .of_end id ends
  simpa using spelled [] left rest yields (.operationsEnd (yields'.operator rfl))

theorem CalleeFront.alone (spelled : CalleeFront trailing front value follow) :
    Alone front (.expr value) := by
  apply alone_of_call
  intro rest ends
  have yields : Yields trailing true follow rest := .of_end (fun _ => rfl) ends
  have yields' : Yields true true [] rest := .of_end id ends
  simpa using spelled [] value rest yields (.suffixesEnd (yields'.suffixes value rfl))

theorem OperandFront.operation (spelled : OperandFront trailing front left (token :: (s ++ follow)))
    (found : token.kind.operator? = some operator) (head : Spells (.call trailing right) s follow) :
    OperandFront trailing (front ++ token :: s)
      (.operation operator left right (left.span.merge right.span)) follow := by
  intro t result rest yields tail
  have solid := operator_class found
  rw [List.append_assoc]
  refine spelled (token :: (s ++ t)) result rest ?_ (.operationsMore found (head.keeps yields) tail)
  rw [List.cons_append, List.append_assoc]
  exact .cons token (by simp [solid]) yields.raised (.inr (by simp [solid]))

theorem CalleeFront.call (spelled : CalleeFront trailing front value (s ++ follow))
    (head : Spells (.arguments args close) s follow) :
    CalleeFront trailing (front ++ s) (.call value args (value.span.merge close)) follow := by
  intro t result rest yields tail
  rw [List.append_assoc]
  refine spelled (s ++ t) result rest ?_
    (.suffixesCall (@Spells.keeps _ _ _ true _ head trivial) tail)
  rw [List.append_assoc]
  exact .segment head.starts rfl (.inr rfl) yields

theorem CalleeFront.methodCall
    (spelled : CalleeFront trailing front value
      (⟨.punctuation .dot, dot⟩ :: ⟨.identifier method, name⟩ :: (s ++ follow)))
    (head : Spells (.arguments args close) s follow) :
    CalleeFront trailing (front ++ ⟨.punctuation .dot, dot⟩ :: ⟨.identifier method, name⟩ :: s)
      (.methodCall value method args (value.span.merge close)) follow := by
  intro t result rest yields tail
  rw [List.append_assoc]
  refine spelled (_ :: _ :: (s ++ t)) result rest ?_
    (.suffixesMethod (@Spells.keeps _ _ _ true _ head trivial) tail)
  exact .cons _ (by simp [TokenKind.toClass]) yields.raised (.inr (by simp [TokenKind.toClass]))

/-- Where the nodes below the result of a phrase are found. -/
def Phrase.Inner (s rest : List Token) : Phrase → Prop
  | expression _ result | call _ result | primary _ result | parenthesized result
  | function _ result | conditional _ result => Located s result.inner
  | operations trailing left result => ∀ front, OperandFront trailing front left (s ++ rest) →
      Located front left.inner → Located (front ++ s) result.inner
  | suffixes trailing value result => ∀ front, CalleeFront trailing front value (s ++ rest) →
      Located front value.inner → Located (front ++ s) result.inner
  | arguments args _ | argumentsTail args _ => Located s (Expr.nodes args)
  | blockOrExpression _ _ result | alternative _ result | block _ result => Located s result.nodes
  | statements _ result => Located s (Stmt.nodes result)
  | statement result => Located s result.inner

theorem Expr.inner_withSpan (span : Span) (value : Expr) :
    (value.withSpan span).inner = value.inner := by
  cases value with
  | conditional condition thenBranch elseBranch =>
    cases elseBranch <;> simp only [Expr.withSpan, Expr.inner]
  | _ => simp only [Expr.withSpan, Expr.inner]

/-- A block behind a call adds itself and its own nodes. -/
theorem Located.withTrailingBlock {value : Expr} (isCall : value.isCall = true)
    (located : Located s value.inner) (body : Located s block.nodes) :
    Located s (value.withTrailingBlock block).inner := by
  have added : Located s (Expr.nodes [.trailingBlock block block.span]) := by
    intro node member plain
    simp only [Expr.nodes, Expr.inner, List.append_nil] at member
    obtain rfl | member := List.mem_cons.mp member
    · contradiction
    · exact body node member plain
  cases value with
  | call callee args =>
    simp only [Expr.withTrailingBlock, Expr.inner, Expr.nodes_append] at located ⊢
    rw [← List.append_assoc, ← List.cons_append]
    exact located.append added
  | methodCall receiver method args =>
    simp only [Expr.withTrailingBlock, Expr.inner, Expr.nodes_append] at located ⊢
    rw [← List.append_assoc, ← List.cons_append]
    exact located.append added
  | _ => contradiction

theorem Located.ofExpr (alone : Alone s (.expr value)) (inner : Located s value.inner) :
    Located s (Block.ofExpr value isFunctionBody).nodes := by
  have stmt : Alone s (.stmt (.expr value value.span)) := alone
  exact stmt.located.cons ((alone.located.cons inner).append .nil)

theorem Spells.inner (spelled : Spells phrase s rest) : phrase.Inner s rest := by
  induction spelled with
  | expression head tail ihHead ihTail => exact ihTail _ (.of_call head) ihHead
  | operationsEnd | suffixesEnd =>
    intro front _ located
    rwa [List.append_nil]
  | operationsMore found head tail ihHead ihTail =>
    intro front spelled located
    have left := spelled.alone.located.cons located
    have right := head.call_alone.located.cons ihHead
    simp only [List.cons_append, List.append_assoc] at spelled
    have grown := ihTail _ (spelled.operation found head)
      ((left.left _).append ((right.skip _).right front))
    rwa [List.append_assoc] at grown
  | call head tail ihHead ihTail => exact ihTail _ (.of_primary head) ihHead
  | suffixesCall head tail ihHead ihTail =>
    intro front spelled located
    have callee := spelled.alone.located.cons located
    rw [List.append_assoc] at spelled
    have grown := ihTail _ (spelled.call head) ((callee.left _).append (ihHead.right front))
    rwa [List.append_assoc] at grown
  | suffixesMethod head tail ihHead ihTail =>
    intro front spelled located
    have receiver := spelled.alone.located.cons located
    simp only [List.cons_append, List.append_assoc] at spelled
    have grown := ihTail _ (spelled.methodCall head)
      ((receiver.left _).append (((ihHead.skip _).skip _).right front))
    rwa [List.append_assoc] at grown
  | suffixesBlock isCall body ih =>
    intro front spelled located
    exact (located.left _).withTrailingBlock isCall (ih.right front)
  | arguments _ _ ih => exact (ih.right _).skip _
  | argumentsNone | statementsEnd => exact .nil
  | argumentsLast head _ ih =>
    exact (head.expression_alone.located.cons (ih.append .nil)).left _
  | argumentsMore head _ _ tail ihHead ihTail =>
    have first := head.expression_alone.located.cons ihHead
    exact (first.left _).append ((((ihTail.right _).skip _).right _).right _)
  | number | string | trueWord | falseWord | nullWord | identifier => exact .nil
  | primaryConditional _ ih | primaryBlock _ ih | primaryFunction _ ih
  | primaryParenthesized _ _ ih | braced _ ih => exact ih
  | parenthesized _ _ _ ih =>
    simp only [Phrase.Inner, Expr.inner_withSpan]
    exact ((ih.left _).right _).skip _
  | function _ _ _ ih => exact (((ih.right _).skip _).skip _ |>.right _).skip _
  | bare inner _ ih => exact .ofExpr inner.expression_alone ih
  | alternativeConditional inner ih =>
    exact .ofExpr (CalleeFront.of_primary (.primaryConditional inner)).alone ih
  | conditional condition _ _ _ ihCondition ihBranch =>
    have test := condition.expression_alone.located.cons ihCondition
    exact ((test.left _).append ((ihBranch.right _).right _)).skip _
  | conditionalElse condition _ _ _ _ ihCondition ihBranch ihOther =>
    have test := condition.expression_alone.located.cons ihCondition
    refine ((test.left _).append (.right (.right (.append (ihBranch.left _) ?_) _) _)).skip _
    exact ((ihOther.skip _).right _).right _
  | alternative _ _ _ ih => exact ih.right _
  | block _ _ ih => exact ((ih.left _).right _).skip _
  | statementsMore head _ _ ihHead ihTail =>
    have first := head.statement_alone.located.cons ihHead
    exact (first.left _).append ((ihTail.right _).right _)
  | declare inner ih => exact (((inner.expression_alone.located.cons ih).skip _).skip _).skip _
  | assign inner ih => exact ((inner.expression_alone.located.cons ih).skip _).skip _
  | forEach head _ ihHead ihTail =>
    have iterable := head.expression_alone.located.cons ihHead
    exact (((iterable.left _).append (ihTail.right _)).skip _).skip _ |>.skip _
  | expressionStatement inner _ ih => exact inner.expression_alone.located.cons ih

end PixelScript
