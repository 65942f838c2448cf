import PixelScript.Proofs.Syntax.Phrase

/-! Spans of trees reach from their first token to their last. This needs tokens in the
order of the text, because the span of a node is merged from those of two of its tokens. -/
namespace PixelScript

/-- Tokens in the order of a text: each ends after it starts and before the next starts. -/
def Ordered (tokens : List Token) : Prop :=
  (∀ token ∈ tokens, token.span.start ≤ token.span.stop) ∧
    tokens.Pairwise fun first second => first.span.stop ≤ second.span.start

theorem Ordered.left (ordered : Ordered (s ++ t)) : Ordered s :=
  ⟨fun token member => ordered.1 token (List.mem_append_left t member),
    (List.pairwise_append.mp ordered.2).1⟩

theorem Ordered.right (ordered : Ordered (s ++ t)) : Ordered t :=
  ⟨fun token member => ordered.1 token (List.mem_append_right s member),
    (List.pairwise_append.mp ordered.2).2.1⟩

theorem Ordered.tail (ordered : Ordered (token :: tokens)) : Ordered tokens :=
  Ordered.right (s := [token]) ordered

/-- The span reaches from the start of the first token to the end of the last. -/
def Covers (tokens : List Token) (span : Span) : Prop :=
  ∃ first last, tokens.head? = some first ∧ tokens.getLast? = some last ∧
    span = ⟨first.span.start, last.span.stop⟩

theorem Covers.single (token : Token) : Covers [token] token.span :=
  ⟨token, token, rfl, rfl, rfl⟩

theorem Covers.merge (left : Covers s a) (right : Covers t b) (ordered : Ordered (s ++ (m ++ t))) :
    Covers (s ++ (m ++ t)) (a.merge b) := by
  obtain ⟨first, last, head, tail, rfl⟩ := left
  obtain ⟨first', last', head', tail', rfl⟩ := right
  have firstMem := List.mem_of_mem_head? (Option.mem_def.mpr head)
  have lastMem := List.mem_of_getLast? tail
  have firstMem' := List.mem_of_mem_head? (Option.mem_def.mpr head')
  have lastMem' := List.mem_of_getLast? tail'
  have apart := (List.pairwise_append.mp ordered.2).2.2
  have starts := apart first firstMem first' (List.mem_append_right m firstMem')
  have stops := apart last lastMem last' (List.mem_append_right m lastMem')
  have firstOrder := ordered.1 first (List.mem_append_left _ firstMem)
  have lastOrder := ordered.1 last' (List.mem_append_right _ (List.mem_append_right m lastMem'))
  refine ⟨first, last', by simp [head], by simp [tail'], ?_⟩
  simp only [Span.merge, Span.mk.injEq]
  omega

/-- A span grows up to the last of the tokens that follow. -/
theorem Covers.merge_last (left : Covers s a) (last : t.getLast? = some token)
    (ordered : Ordered (s ++ t)) : Covers (s ++ t) (a.merge token.span) := by
  obtain ⟨front, rfl⟩ := List.getLast?_eq_some_iff.mp last
  exact left.merge (.single token) ordered

/-- A span grows down to the first of the tokens in front. -/
theorem Covers.first_merge (head : s.head? = some ⟨kind, start⟩) (right : Covers t b)
    (ordered : Ordered (s ++ t)) : Covers (s ++ t) (start.merge b) := by
  obtain ⟨more, rfl⟩ := List.head?_eq_some_iff.mp head
  exact Covers.merge (s := [⟨kind, start⟩]) (.single ⟨kind, start⟩) right ordered

/-- What a phrase says about spans: the tree covers the tokens, and one that grows from a
tree in front of it covers both. -/
def Phrase.Extent (s : List Token) : Phrase → Prop
  | expression _ result | call _ result | primary _ result | parenthesized result
  | function _ result | conditional _ result => Ordered s → Covers s result.span
  | operations _ left result | suffixes _ left result =>
    ∀ front, Covers front left.span → Ordered (front ++ s) → Covers (front ++ s) result.span
  | arguments _ close | argumentsTail _ close => ∃ last, s.getLast? = some last ∧ close = last.span
  | alternative _ result => Ordered s → ∃ n part, s = n ++ part ∧ Covers part result.span
  | blockOrExpression _ _ result | block _ result => Ordered s → Covers s result.span
  | statements .. => True
  | statement result => Ordered s → Covers s result.span

theorem Expr.span_withSpan (span : Span) (value : Expr) : (value.withSpan span).span = span := by
  cases value <;> rfl

theorem Expr.span_withTrailingBlock (body : Block) {value : Expr} (isCall : value.isCall = true) :
    (value.withTrailingBlock body).span = value.span.merge body.span := by
  cases value <;> first | rfl | contradiction

theorem Spells.extent (spelled : Spells phrase s rest) : phrase.Extent s := by
  induction spelled with
  | expression _ _ ihHead ihTail | call _ _ ihHead ihTail =>
    exact fun ordered => ihTail _ (ihHead ordered.left) ordered
  | operationsEnd | suffixesEnd =>
    intro front covers _
    rwa [List.append_nil]
  | operationsMore _ _ _ ihHead ihTail =>
    intro front covers ordered
    simp only [← List.cons_append, ← List.append_assoc] at ordered ⊢
    have right := ihHead ordered.left.right.tail
    exact ihTail _ (covers.merge (m := [_]) right ordered.left) ordered
  | suffixesCall _ _ ihHead ihTail =>
    intro front covers ordered
    obtain ⟨last, close, rfl⟩ := ihHead
    rw [← List.append_assoc] at ordered ⊢
    exact ihTail _ (covers.merge_last close ordered.left) ordered
  | suffixesMethod _ _ ihHead ihTail =>
    intro front covers ordered
    obtain ⟨last, ends, rfl⟩ := ihHead
    simp only [← List.cons_append, ← List.append_assoc] at ordered ⊢
    refine ihTail _ (covers.merge_last ?_ ordered.left) ordered
    simp [List.getLast?_cons, ends]
  | suffixesBlock isCall _ ih =>
    intro front covers ordered
    rw [Expr.span_withTrailingBlock _ isCall]
    exact covers.merge (m := []) (ih ordered.right) ordered
  | arguments _ _ ih =>
    obtain ⟨last, ends, rfl⟩ := ih
    exact ⟨last, by simp [List.getLast?_cons, ends], rfl⟩
  | argumentsNone => exact ⟨_, rfl, rfl⟩
  | argumentsLast => exact ⟨_, by simp [List.getLast?_append]; rfl, rfl⟩
  | argumentsMore _ _ _ _ _ ih =>
    obtain ⟨last, ends, rfl⟩ := ih
    exact ⟨last, by simp [List.getLast?_append, List.getLast?_cons, ends], rfl⟩
  | number | string | trueWord | falseWord | nullWord | identifier => exact fun _ => .single _
  | primaryConditional _ ih | primaryBlock _ ih | primaryFunction _ ih | primaryParenthesized _ _ ih
  | braced _ ih | bare _ _ ih | expressionStatement _ _ ih => exact ih
  | parenthesized =>
    intro ordered
    rw [Expr.span_withSpan]
    simp only [← List.cons_append, ← List.append_assoc] at ordered ⊢
    exact Covers.first_merge rfl (.single ⟨_, _⟩) ordered
  | function _ _ _ ih | conditional _ _ _ _ _ ih | forEach _ _ _ ih =>
    intro ordered
    simp only [← List.cons_append, ← List.append_assoc] at ordered ⊢
    exact Covers.first_merge rfl (ih ordered.right) ordered
  | conditionalElse _ _ _ _ _ _ _ ih =>
    intro ordered
    simp only [← List.cons_append, ← List.append_assoc] at ordered ⊢
    obtain ⟨n, part, rfl, covers⟩ := ih ordered.right.tail
    simp only [← List.cons_append, ← List.append_assoc] at ordered ⊢
    exact Covers.first_merge rfl covers ordered
  | alternativeConditional _ ih => exact fun ordered => ⟨[], _, rfl, ih ordered⟩
  | alternative _ _ _ ih => exact fun ordered => ⟨_, _, rfl, ih ordered.right⟩
  | block =>
    intro ordered
    simp only [← List.cons_append, ← List.append_assoc] at ordered ⊢
    exact Covers.first_merge rfl (.single ⟨_, _⟩) ordered
  | statementsEnd | statementsMore => trivial
  | declare _ ih =>
    exact fun ordered => Covers.first_merge (s := [_, _, _]) rfl (ih ordered.tail.tail.tail) ordered
  | assign _ ih =>
    exact fun ordered => Covers.first_merge (s := [_, _]) rfl (ih ordered.tail.tail) ordered

end PixelScript
