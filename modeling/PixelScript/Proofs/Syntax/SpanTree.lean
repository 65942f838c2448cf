import PixelScript.Proofs.Token.Layout

/-! Spans form a tree. A node covers a row of tokens, and its children have rows of their own
among these, one behind the other. So the span of a child lies in that of its parent, and the
spans of siblings are apart and in the order of the text. -/
namespace PixelScript

namespace Span

def Within (inner outer : Span) : Prop :=
  outer.start ≤ inner.start ∧ inner.stop ≤ outer.stop

/-- The first span ends before the second starts; they may touch. -/
def Before (first second : Span) : Prop :=
  first.stop ≤ second.start

end Span

/-- A part of a syntax tree that has a span of its own. -/
inductive Subtree where
  | stmt (stmt : Stmt)
  | expr (value : Expr)
  | block (body : Block)

def Expr.children : Expr → List Subtree
  | .number .. | .string .. | .boolean .. | .null .. | .identifier .. => []
  | .function _ body _ | .block body _ | .trailingBlock body _ => [.block body]
  | .call callee args _ | .methodCall callee _ args _ => .expr callee :: args.map .expr
  | .conditional condition thenBranch elseBranch _ =>
    .expr condition :: .block thenBranch :: (elseBranch.map .block).toList
  | .operation _ left right _ => [.expr left, .expr right]

namespace Subtree

def span : Subtree → Span
  | stmt statement => statement.span
  | expr value => value.span
  | block body => body.span

/-- What stands directly below, in the order of the text. -/
def children : Subtree → List Subtree
  | stmt (.declare _ value _) | stmt (.assign _ value _) | stmt (.expr value _) => [expr value]
  | stmt (.forEach _ iterable body _) => [expr iterable, block body]
  | expr value => value.children
  | block body => body.statements.map stmt

end Subtree

/-- The statements of a program, and all that stands below them. -/
inductive Program.Contains (program : Program) : Subtree → Prop
  | statement (member : stmt ∈ program.statements) : Contains program (.stmt stmt)
  | child (parent : Contains program tree) (member : child ∈ tree.children) :
      Contains program child

/-- How the span of a subtree lies among the tokens of a text and the spans below it. -/
structure Subtree.Spanned (tokens : List Token) (tree : Subtree) : Prop where
  ends : ∃ first ∈ tokens, ∃ last ∈ tokens, first.kind ≠ .endOfInput ∧
    last.kind ≠ .endOfInput ∧ tree.span = ⟨first.span.start, last.span.stop⟩
  solid : tree.span.start < tree.span.stop
  within : ∀ child ∈ tree.children, child.span.Within tree.span
  apart : tree.children.Pairwise fun child next => child.span.Before next.span

theorem Expr.children_withSpan (span : Span) (value : Expr) :
    (value.withSpan span).children = value.children := by
  cases value <;> rfl

/-- A block behind a call is one more argument. -/
theorem Expr.children_withTrailingBlock (body : Block) {value : Expr}
    (isCall : value.isCall = true) : (value.withTrailingBlock body).children =
      value.children ++ [.expr (.trailingBlock body body.span)] := by
  cases value with
  | call | methodCall => simp [Expr.withTrailingBlock, Expr.children]
  | _ => contradiction

section Ordered

variable {s t part : List Token} {span inner later : Span}

theorem Ordered.sublist (ordered : Ordered s) (sublist : part.Sublist s) : Ordered part :=
  ⟨fun token member => ordered.1 token (sublist.subset member), ordered.2.sublist sublist⟩

theorem Covers.exists_mem (covers : Covers s span) :
    ∃ first ∈ s, ∃ last ∈ s, span = ⟨first.span.start, last.span.stop⟩ := by
  obtain ⟨first, last, head, tail, same⟩ := covers
  have firstMem := List.mem_of_mem_head? (Option.mem_def.mpr head)
  exact ⟨first, firstMem, last, List.mem_of_getLast? tail, same⟩

/-- Every token of a row lies in the span of the row. -/
theorem Covers.within_of_mem (covers : Covers s span) (ordered : Ordered s)
    (member : token ∈ s) : token.span.Within span := by
  obtain ⟨first, last, head, tail, rfl⟩ := covers
  constructor
  · obtain ⟨more, rfl⟩ := List.head?_eq_some_iff.mp head
    obtain rfl | behind := List.mem_cons.mp member
    · exact Nat.le_refl _
    · have apart := (List.pairwise_cons.mp ordered.2).1 token behind
      exact Nat.le_trans (ordered.1 first List.mem_cons_self) apart
  · obtain ⟨front, rfl⟩ := List.getLast?_eq_some_iff.mp tail
    obtain before | same := List.mem_append.mp member
    · have isLast : last ∈ [last] := List.mem_cons_self
      have apart := (List.pairwise_append.mp ordered.2).2.2 token before last isLast
      exact Nat.le_trans apart (ordered.1 last (List.mem_append_right front isLast))
    · obtain rfl := List.mem_singleton.mp same
      exact Nat.le_refl _

/-- A row among the tokens of another one has its span in that of the other. -/
theorem Covers.within (covers : Covers s span) (ordered : Ordered s) (row : Covers part inner)
    (among : part ⊆ s) : inner.Within span := by
  obtain ⟨first, firstMem, last, lastMem, rfl⟩ := row.exists_mem
  have start := covers.within_of_mem ordered (among firstMem)
  have stop := covers.within_of_mem ordered (among lastMem)
  exact ⟨start.1, stop.2⟩

/-- A row among later tokens has a later span. -/
theorem Covers.before (covers : Covers s span) (ordered : Ordered (s ++ t))
    (row : Covers part later) (among : part ⊆ t) : span.Before later := by
  obtain ⟨_, _, last, lastMem, rfl⟩ := covers.exists_mem
  obtain ⟨first, firstMem, _, _, rfl⟩ := row.exists_mem
  exact (List.pairwise_append.mp ordered.2).2.2 last lastMem first (among firstMem)

end Ordered

/-- `Sequenced fits tokens trees`: the trees have parts of the tokens, one behind the other. -/
inductive Sequenced (fits : List Token → Subtree → Prop) : List Token → List Subtree → Prop
  | nil : Sequenced fits s []
  | cons (first : fits part tree) (more : Sequenced fits after trees) :
      Sequenced fits (before ++ (part ++ after)) (tree :: trees)

namespace Sequenced

variable {fits : List Token → Subtree → Prop} {s t : List Token}

theorem single (fit : fits s tree) : Sequenced fits s [tree] := by
  simpa using (cons fit nil : Sequenced fits ([] ++ (s ++ [])) [tree])

theorem left (sequenced : Sequenced fits s trees) (after : List Token) :
    Sequenced fits (s ++ after) trees := by
  induction sequenced with
  | nil => exact .nil
  | cons first _ ih => simpa only [List.append_assoc] using cons first ih

theorem right (sequenced : Sequenced fits s trees) (before : List Token) :
    Sequenced fits (before ++ s) trees := by
  cases sequenced with
  | nil => exact .nil
  | cons first more =>
    rw [← List.append_assoc]
    exact .cons first more

theorem skip (sequenced : Sequenced fits s trees) (token : Token) :
    Sequenced fits (token :: s) trees :=
  sequenced.right [token]

theorem append (sequenced : Sequenced fits s trees) (more : Sequenced fits t trees') :
    Sequenced fits (s ++ t) (trees ++ trees') := by
  induction sequenced with
  | nil => exact more.right _
  | cons first _ ih =>
    rw [List.cons_append]
    simpa only [List.append_assoc] using cons first ih

theorem exists_part (sequenced : Sequenced fits s trees) (member : tree ∈ trees) :
    ∃ part, part <:+: s ∧ fits part tree := by
  induction sequenced with
  | nil => contradiction
  | @cons part _ after _ before first _ ih =>
    obtain rfl | member := List.mem_cons.mp member
    · exact ⟨part, List.infix_append' before part after, first⟩
    · obtain ⟨part', among, fit⟩ := ih member
      have behind : after <:+ before ++ (part ++ after) :=
        (List.suffix_append part after).trans (List.suffix_append before _)
      exact ⟨part', among.trans behind.isInfix, fit⟩

end Sequenced

/-- `Nests tokens tree`: the tree covers the tokens, and each child nests in a part of them. -/
inductive Nests : List Token → Subtree → Prop
  | intro (covers : Covers s tree.span) (inner : Sequenced Nests s tree.children) : Nests s tree

namespace Nests

variable {s front : List Token} {value left right : Expr}

theorem covers (nests : Nests s tree) : Covers s tree.span := by
  cases nests
  assumption

/-- A tree around another one that has the same text. -/
theorem around (nests : Nests s tree) (span : outer.span = tree.span)
    (only : outer.children = [tree]) : Nests s outer := by
  refine .intro ?_ ?_
  · rw [span]
    exact nests.covers
  · rw [only]
    exact .single nests

theorem ofExpr (nests : Nests s (.expr value)) :
    Nests s (.block (.ofExpr value isFunctionBody)) := by
  have stmt : Nests s (.stmt (.expr value value.span)) := nests.around rfl rfl
  exact stmt.around rfl rfl

/-- Parentheses change the span alone, so the children keep their rows. -/
theorem withSpan (nests : Nests s (.expr value)) (covers : Covers (before ++ (s ++ after)) span) :
    Nests (before ++ (s ++ after)) (.expr (value.withSpan span)) := by
  obtain ⟨_, inner⟩ := nests
  refine .intro ?_ ?_
  · rwa [Subtree.span, Expr.span_withSpan]
  · rw [Subtree.children, Expr.children_withSpan]
    exact (inner.left after).right before

theorem operation (first : Nests front (.expr left)) (second : Nests s (.expr right))
    (ordered : Ordered (front ++ token :: s)) :
    Nests (front ++ token :: s)
      (.expr (.operation operator left right (left.span.merge right.span))) := by
  refine .intro ?_ ?_
  · exact first.covers.merge (m := [token]) second.covers ordered
  · exact (Sequenced.single first).append ((Sequenced.single second).skip token)

/-- A call grows from its callee or receiver up to the parenthesis behind its arguments. -/
theorem grown (nests : Nests front tree) (more : Sequenced Nests s trees)
    (close : s.getLast? = some last) (ordered : Ordered (front ++ s))
    (span : outer.span = tree.span.merge last.span) (below : outer.children = tree :: trees) :
    Nests (front ++ s) outer := by
  refine .intro ?_ ?_
  · rw [span]
    exact nests.covers.merge_last close ordered
  · rw [below]
    exact (Sequenced.single nests).append more

theorem withTrailingBlock (nests : Nests front (.expr value)) (isCall : value.isCall = true)
    (body : Nests s (.block block)) (ordered : Ordered (front ++ s)) :
    Nests (front ++ s) (.expr (value.withTrailingBlock block)) := by
  obtain ⟨covers, inner⟩ := nests
  refine .intro ?_ ?_
  · rw [Subtree.span, Expr.span_withTrailingBlock _ isCall]
    exact covers.merge (m := []) body.covers ordered
  · rw [Subtree.children, Expr.children_withTrailingBlock _ isCall]
    exact inner.append (.single (body.around rfl rfl))

end Nests

/-- What a phrase says about nesting: its result nests in its tokens, and one that grows from
a tree in front of it in the tokens of both. -/
def Phrase.Layered (s : List Token) : Phrase → Prop
  | expression _ result | call _ result | primary _ result | parenthesized result
  | function _ result | conditional _ result => Ordered s → Nests s (.expr result)
  | operations _ left result | suffixes _ left result =>
    ∀ front, Nests front (.expr left) → Ordered (front ++ s) → Nests (front ++ s) (.expr result)
  | arguments args _ | argumentsTail args _ => Ordered s → Sequenced Nests s (args.map .expr)
  | alternative _ result => Ordered s → ∃ n part, s = n ++ part ∧ Nests part (.block result)
  | blockOrExpression _ _ result | block _ result => Ordered s → Nests s (.block result)
  | statements _ result => Ordered s → Sequenced Nests s (result.map .stmt)
  | statement result => Ordered s → Nests s (.stmt result)

theorem Spells.layered (spelled : Spells phrase s rest) : phrase.Layered s := by
  -- where a tree is complete its extent is known; what is left are the rows of its children
  induction spelled with
  | expression _ _ ihHead ihTail | call _ _ ihHead ihTail =>
    exact fun ordered => ihTail _ (ihHead ordered.left) ordered
  | operationsEnd | suffixesEnd =>
    intro front nests _
    rwa [List.append_nil]
  | operationsMore _ _ _ ihHead ihTail =>
    intro front left ordered
    simp only [← List.cons_append, ← List.append_assoc] at ordered ⊢
    have right := ihHead ordered.left.right.tail
    exact ihTail _ (left.operation right ordered.left) ordered
  | suffixesCall head _ ihHead ihTail =>
    intro front callee ordered
    obtain ⟨last, close, rfl⟩ := head.extent
    rw [← List.append_assoc] at ordered ⊢
    have args := ihHead ordered.left.right
    exact ihTail _ (callee.grown args close ordered.left rfl rfl) ordered
  | suffixesMethod head _ ihHead ihTail =>
    intro front receiver ordered
    obtain ⟨last, close, rfl⟩ := head.extent
    simp only [← List.cons_append, ← List.append_assoc] at ordered ⊢
    have args := ihHead ordered.left.right.tail.tail
    refine ihTail _ (receiver.grown ((args.skip _).skip _) ?_ ordered.left rfl rfl) ordered
    simp [List.getLast?_cons, close]
  | suffixesBlock isCall _ ih =>
    intro front call ordered
    exact call.withTrailingBlock isCall (ih ordered.right) ordered
  | arguments _ _ ih =>
    intro ordered
    exact ((ih ordered.tail.right).right _).skip _
  | argumentsNone | statementsEnd => exact fun _ => .nil
  | argumentsLast _ _ ih =>
    intro ordered
    exact (Sequenced.single (ih ordered.left)).left _
  | argumentsMore _ _ _ _ ihHead ihTail =>
    intro ordered
    have first := Sequenced.single (ihHead ordered.left)
    have more := ihTail ordered.right.right.tail.right
    exact first.append (((more.right _).skip _).right _)
  | number | string | trueWord | falseWord | nullWord | identifier =>
    exact fun _ => .intro (.single _) .nil
  | primaryConditional _ ih | primaryFunction _ ih | primaryParenthesized _ _ ih
  | braced _ ih => exact ih
  | primaryBlock _ ih | expressionStatement _ _ ih =>
    exact fun ordered => (ih ordered).around rfl rfl
  | parenthesized newlines inner newlines' ih =>
    intro ordered
    have covers := (Spells.parenthesized newlines inner newlines').extent ordered
    rw [Expr.span_withSpan, ← List.cons_append] at covers
    rw [← List.cons_append]
    exact (ih ordered.tail.right.left).withSpan covers
  | function parameters newlines inner ih =>
    intro ordered
    refine .intro ((Spells.function parameters newlines inner).extent ordered) ?_
    have body := Sequenced.single (ih ordered.tail.right.tail.tail.right)
    exact ((((body.right _).skip _).skip _).right _).skip _
  | bare _ _ ih => exact fun ordered => (ih ordered).ofExpr
  | conditional condition newlines branch noElse ihCondition ihBranch =>
    intro ordered
    refine .intro ((Spells.conditional condition newlines branch noElse).extent ordered) ?_
    have test := Sequenced.single (ihCondition ordered.tail.left)
    have thenBranch := Sequenced.single (ihBranch ordered.tail.right.right)
    exact (test.append (thenBranch.right _)).skip _
  | conditionalElse condition newlines branch newlines' other ihCondition ihBranch ihOther =>
    intro ordered
    refine .intro
      ((Spells.conditionalElse condition newlines branch newlines' other).extent ordered) ?_
    have test := Sequenced.single (ihCondition ordered.tail.left)
    have thenBranch := Sequenced.single (ihBranch ordered.tail.right.right.left)
    -- newlines behind `else` are taken with the alternative, but are no part of the branch
    obtain ⟨_, _, rfl, nests⟩ := ihOther ordered.tail.right.right.right.right.tail
    have elseBranch := Sequenced.single nests
    refine (test.append (.right (thenBranch.append ?_) _)).skip _
    exact ((elseBranch.right _).skip _).right _
  | alternativeConditional _ ih => exact fun ordered => ⟨[], _, rfl, (ih ordered).ofExpr⟩
  | alternative _ _ _ ih => exact fun ordered => ⟨_, _, rfl, ih ordered.right⟩
  | @block _ _ _ _ _ isFunctionBody _ newlines inner ih =>
    intro ordered
    refine .intro ((@Spells.block _ _ _ _ _ isFunctionBody _ newlines inner).extent ordered) ?_
    exact (((ih ordered.tail.right.left).left _).right _).skip _
  | statementsMore _ _ _ ihHead ihTail =>
    intro ordered
    have first := Sequenced.single (ihHead ordered.left)
    exact first.append ((ihTail ordered.right.right).right _)
  | declare inner ih =>
    intro ordered
    refine .intro ((Spells.declare inner).extent ordered) ?_
    exact (((Sequenced.single (ih ordered.tail.tail.tail)).skip _).skip _).skip _
  | assign inner ih =>
    intro ordered
    refine .intro ((Spells.assign inner).extent ordered) ?_
    exact ((Sequenced.single (ih ordered.tail.tail)).skip _).skip _
  | forEach head tail ihHead ihTail =>
    intro ordered
    refine .intro ((Spells.forEach head tail).extent ordered) ?_
    have iterable := Sequenced.single (ihHead ordered.tail.tail.tail.left)
    have body := Sequenced.single (ihTail ordered.tail.tail.tail.right)
    exact (((iterable.append body).skip _).skip _).skip _

/-- Trees that nest one behind the other have spans in this order. -/
theorem Sequenced.before (sequenced : Sequenced Nests s trees) (ordered : Ordered s) :
    trees.Pairwise fun tree next => tree.span.Before next.span := by
  induction sequenced with
  | nil => exact .nil
  | cons first more ih =>
    refine .cons ?_ (ih ordered.right.right)
    intro next member
    obtain ⟨part, among, nests⟩ := more.exists_part member
    exact first.covers.before ordered.right nests.covers among.subset

/-- Whatever a program contains nests in a part of the tokens of its statements. -/
theorem Program.Contains.exists_part {program : Program} (contains : program.Contains tree)
    (sequenced : Sequenced Nests s (program.statements.map .stmt)) :
    ∃ part, part <:+: s ∧ Nests part tree := by
  induction contains with
  | statement member => exact sequenced.exists_part (List.mem_map_of_mem member)
  | child _ member ih =>
    obtain ⟨row, among, nests⟩ := ih
    obtain ⟨_, inner⟩ := nests
    obtain ⟨part, among', nests⟩ := inner.exists_part member
    exact ⟨part, among'.trans among, nests⟩

/-- A tree that nests in tokens of a text, all of which cover something. -/
theorem Nests.spanned (nests : Nests s tree) (ordered : Ordered s)
    (solid : ∀ token ∈ s, token ∈ tokens ∧ token.kind ≠ .endOfInput ∧
      token.span.start < token.span.stop) : tree.Spanned tokens := by
  obtain ⟨covers, inner⟩ := nests
  obtain ⟨first, firstMem, last, lastMem, same⟩ := covers.exists_mem
  obtain ⟨firstScanned, firstKind, nonempty⟩ := solid first firstMem
  obtain ⟨lastScanned, lastKind, _⟩ := solid last lastMem
  refine ⟨⟨first, firstScanned, last, lastScanned, firstKind, lastKind, same⟩, ?_, ?_,
    inner.before ordered⟩
  · obtain ⟨start, stop⟩ := covers.within_of_mem ordered firstMem
    omega
  · intro child member
    obtain ⟨part, among, nests⟩ := inner.exists_part member
    exact covers.within ordered nests.covers among.subset

/-- Spans form a tree: every statement, expression and block of a program covers some text,
from the start of a token to the end of a token; what stands directly below it covers parts
of this text that are apart from each other and in their order; and so do the statements. -/
theorem Program.parse_spans {source : String} {program : Program}
    (bound : Text.byteLength source.toList ≤ Span.maxOffset)
    (parsed : Program.parse source = .ok program) :
    ∃ tokens, Token.scan source = .ok tokens ∧
      (∀ tree, program.Contains tree → tree.Spanned tokens) ∧
      program.statements.Pairwise fun stmt next => stmt.span.Before next.span := by
  obtain ⟨tokens, scans, parsed⟩ := Program.parse_eq_ok_iff.mp parsed
  obtain ⟨n, s, rest, newlines, rfl, spelled⟩ := Program.ofTokens_eq_ok_iff.mp parsed
  have ordered : Ordered s := scans.ordered.right.left
  have sequenced : Sequenced Nests s (program.statements.map .stmt) := spelled.layered ordered
  refine ⟨_, Scan.tokensFrom_eq_ok_iff.mpr scans, ?_, ?_⟩
  · intro tree contains
    obtain ⟨part, among, nests⟩ := contains.exists_part sequenced
    apply nests.spanned (ordered.sublist among.sublist)
    intro token member
    have spelledBy := among.subset member
    have scanned := List.mem_append_right n (List.mem_append_left rest spelledBy)
    have solid := spelled.inside token spelledBy
    exact ⟨scanned, solid, scans.start_lt_stop (by simpa using bound) scanned solid⟩
  · have before := sequenced.before ordered
    rwa [List.pairwise_map] at before

/-- A call in parentheses with a block behind it: the block lies outside of the parentheses and
inside of the call. -/
theorem Program.parse_spans_trailingBlock :
    let source := "(f(x)) \x7b (a) \x7d\nb"
    let body : Block := .mk [.expr (.identifier "a" ⟨9, 12⟩) ⟨9, 12⟩] true ⟨7, 14⟩
    let call : Expr := .call (.identifier "f" ⟨1, 2⟩)
      [.identifier "x" ⟨3, 4⟩, .trailingBlock body ⟨7, 14⟩] ⟨0, 14⟩
    let program : Program :=
      ⟨[.expr call ⟨0, 14⟩, .expr (.identifier "b" ⟨15, 16⟩) ⟨15, 16⟩]⟩
    Text.byteLength source.toList ≤ Span.maxOffset ∧ Program.parse source = .ok program ∧
      program.Contains (.expr call) ∧
      ∃ tokens, Token.scan source = .ok tokens ∧
        (∀ tree, program.Contains tree → tree.Spanned tokens) ∧
        program.statements.Pairwise fun stmt next => stmt.span.Before next.span := by
  intro source body call program
  have bound : Text.byteLength source.toList ≤ Span.maxOffset := by decide
  have parsed : Program.parse source = .ok program := by cbv
  have statement : program.Contains (.stmt (.expr call ⟨0, 14⟩)) :=
    .statement List.mem_cons_self
  exact ⟨bound, parsed, .child statement List.mem_cons_self, Program.parse_spans bound parsed⟩

end PixelScript
