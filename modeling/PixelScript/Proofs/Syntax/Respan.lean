import PixelScript.Proofs.Syntax.Completeness
import PixelScript.Proofs.Syntax.Nodes

/-! Parsing commutes with moving spans. The parser never looks at a span, it only merges
spans, so a change of spans that respects merging can be made before or after. -/
namespace PixelScript

def Token.mapSpan (change : Span → Span) (token : Token) : Token :=
  ⟨token.kind, change token.span⟩

/-- Changes of spans that respect merging. -/
def MergeHom (change : Span → Span) : Prop :=
  ∀ first second, change (first.merge second) = (change first).merge (change second)

namespace Span

/-- The span that many bytes later in a text. -/
def shiftUp (distance : Nat) (span : Span) : Span :=
  ⟨distance + span.start, distance + span.stop⟩

def shiftDown (distance : Nat) (span : Span) : Span :=
  ⟨span.start - distance, span.stop - distance⟩

theorem shiftUp_mergeHom (distance : Nat) : MergeHom (shiftUp distance) := by
  intro first second
  simp only [shiftUp, merge, Span.mk.injEq]
  omega

theorem shiftDown_mergeHom (distance : Nat) : MergeHom (shiftDown distance) := by
  intro first second
  simp only [shiftDown, merge, Span.mk.injEq]
  omega

@[simp] theorem shiftDown_shiftUp (distance : Nat) (span : Span) :
    shiftDown distance (shiftUp distance span) = span := by
  simp [shiftDown, shiftUp]

theorem shiftUp_ofRange {start stop : Nat} (order : start ≤ stop)
    (bound : distance + stop ≤ maxOffset) :
    shiftUp distance (ofRange start stop) = ofRange (distance + start) (distance + stop) := by
  simp only [shiftUp, ofRange, Span.mk.injEq]
  omega

end Span

namespace Phrase

def mapSpan (change : Span → Span) : Phrase → Phrase
  | expression trailing result => expression trailing (result.mapSpan change)
  | operations trailing left result =>
    operations trailing (left.mapSpan change) (result.mapSpan change)
  | call trailing result => call trailing (result.mapSpan change)
  | suffixes trailing value result =>
    suffixes trailing (value.mapSpan change) (result.mapSpan change)
  | arguments args close => arguments (Expr.mapSpans change args) (change close)
  | argumentsTail args close => argumentsTail (Expr.mapSpans change args) (change close)
  | primary trailing result => primary trailing (result.mapSpan change)
  | parenthesized result => parenthesized (result.mapSpan change)
  | function trailing result => function trailing (result.mapSpan change)
  | blockOrExpression trailing isFunctionBody result =>
    blockOrExpression trailing isFunctionBody (result.mapSpan change)
  | conditional trailing result => conditional trailing (result.mapSpan change)
  | alternative trailing result => alternative trailing (result.mapSpan change)
  | block isFunctionBody result => block isFunctionBody (result.mapSpan change)
  | statements inBlock result => statements inBlock (Stmt.mapSpans change result)
  | statement result => statement (result.mapSpan change)

end Phrase

variable {change : Span → Span}

theorem Expr.span_mapSpan (change : Span → Span) (value : Expr) :
    (value.mapSpan change).span = change value.span := by
  cases value with
  | conditional condition thenBranch elseBranch => cases elseBranch <;> simp only [mapSpan, span]
  | _ => simp only [mapSpan, span]

theorem Block.span_mapSpan (change : Span → Span) (block : Block) :
    (block.mapSpan change).span = change block.span := by
  cases block
  simp only [mapSpan, span]

theorem Expr.isCall_mapSpan (value : Expr) : (value.mapSpan change).isCall = value.isCall := by
  cases value with
  | conditional condition thenBranch elseBranch => cases elseBranch <;> simp only [mapSpan, isCall]
  | _ => simp only [mapSpan, isCall]

theorem Expr.mapSpan_withSpan (span : Span) (value : Expr) :
    (value.withSpan span).mapSpan change = (value.mapSpan change).withSpan (change span) := by
  cases value with
  | conditional condition thenBranch elseBranch =>
    cases elseBranch <;> simp only [mapSpan, withSpan]
  | _ => simp only [mapSpan, withSpan]

theorem Expr.mapSpans_append (first more : List Expr) :
    mapSpans change (first ++ more) = mapSpans change first ++ mapSpans change more := by
  induction first with
  | nil => simp only [List.nil_append, mapSpans]
  | cons value values ih => simp only [List.cons_append, mapSpans, ih]

theorem Expr.mapSpan_withTrailingBlock (hom : MergeHom change) (body : Block) (value : Expr) :
    (value.withTrailingBlock body).mapSpan change =
      (value.mapSpan change).withTrailingBlock (body.mapSpan change) := by
  cases value with
  | call callee args span =>
    simp only [mapSpan, withTrailingBlock, mapSpans_append, mapSpans, hom _ _, Block.span_mapSpan]
  | methodCall receiver method args span =>
    simp only [mapSpan, withTrailingBlock, mapSpans_append, mapSpans, hom _ _, Block.span_mapSpan]
  | conditional condition thenBranch elseBranch =>
    cases elseBranch <;> simp only [mapSpan, withTrailingBlock]
  | _ => simp only [mapSpan, withTrailingBlock]

theorem Block.mapSpan_ofExpr (value : Expr) (isFunctionBody : Bool) :
    (Block.ofExpr value isFunctionBody).mapSpan change =
      .ofExpr (value.mapSpan change) isFunctionBody := by
  simp only [ofExpr, mapSpan, Stmt.mapSpans, Stmt.mapSpan, Expr.span_mapSpan]

namespace Lookahead

@[simp] theorem currentClass_mapSpan (tokens : List Token) :
    currentClass (tokens.map (Token.mapSpan change)) = currentClass tokens := by
  cases tokens <;> rfl

@[simp] theorem operator?_mapSpan (tokens : List Token) :
    (current (tokens.map (Token.mapSpan change))).kind.operator? =
      (current tokens).kind.operator? := by
  cases tokens <;> rfl

@[simp] theorem endsSuffixes_mapSpan (value : Expr) (tokens : List Token) :
    endsSuffixes trailing (value.mapSpan change) (tokens.map (Token.mapSpan change)) =
      endsSuffixes trailing value tokens := by
  simp only [endsSuffixes, currentClass_mapSpan, Expr.isCall_mapSpan]

@[simp] theorem endsStatements_mapSpan (tokens : List Token) :
    endsStatements inBlock (tokens.map (Token.mapSpan change)) = endsStatements inBlock tokens := by
  simp only [endsStatements, currentClass_mapSpan]

@[simp] theorem elseAhead_mapSpan (tokens : List Token) :
    elseAhead (tokens.map (Token.mapSpan change)) = elseAhead tokens := by
  have kept : isNewline ∘ Token.mapSpan change = isNewline := rfl
  simp only [elseAhead, List.dropWhile_map, kept, currentClass_mapSpan]

/-- A token of given kind in front is one of the same kind with another span. -/
theorem eq_cons_of_mapSpan (same : tokens.map (Token.mapSpan change) = ⟨kind, span⟩ :: more) :
    ∃ before tail, tokens = ⟨kind, before⟩ :: tail ∧ tail.map (Token.mapSpan change) = more := by
  obtain ⟨token, tail, rfl, first, later⟩ := List.map_eq_cons_iff.mp same
  obtain ⟨rfl, _⟩ := Token.mk.inj first
  exact ⟨token.span, tail, rfl, later⟩

@[simp] theorem startsAssignment_mapSpan (tokens : List Token) :
    startsAssignment (tokens.map (Token.mapSpan change)) = startsAssignment tokens := by
  fun_cases startsAssignment tokens with
  | case1 => rfl
  | case2 tokens other =>
    generalize same : tokens.map (Token.mapSpan change) = mapped
    fun_cases startsAssignment mapped with
    | case1 =>
      obtain ⟨_, _, rfl, later⟩ := eq_cons_of_mapSpan same
      obtain ⟨_, _, rfl, _⟩ := eq_cons_of_mapSpan later
      exact (other _ _ _ _ rfl).elim
    | case2 => rfl

@[simp] theorem isParameterList_mapSpan (tokens : List Token) :
    isParameterList (tokens.map (Token.mapSpan change)) = isParameterList tokens := by
  fun_induction isParameterList tokens with
  | case1 _ _ _ _ ih => exact ih
  | case2 => rfl
  | case3 tokens noComma noArrow =>
    generalize same : tokens.map (Token.mapSpan change) = mapped
    fun_cases isParameterList mapped with
    | case1 =>
      obtain ⟨_, _, rfl, later⟩ := eq_cons_of_mapSpan same
      obtain ⟨_, _, rfl, _⟩ := eq_cons_of_mapSpan later
      exact (noComma _ _ _ _ rfl).elim
    | case2 =>
      obtain ⟨_, _, rfl, later⟩ := eq_cons_of_mapSpan same
      obtain ⟨_, _, rfl, last⟩ := eq_cons_of_mapSpan later
      obtain ⟨_, _, rfl, _⟩ := eq_cons_of_mapSpan last
      exact (noArrow _ _ _ _ _ rfl).elim
    | case3 => rfl

@[simp] theorem isFunctionHead_mapSpan (tokens : List Token) :
    isFunctionHead (tokens.map (Token.mapSpan change)) = isFunctionHead tokens := by
  fun_cases isFunctionHead tokens with
  | case1 => rfl
  | case2 first rest other =>
    generalize same : (first :: rest).map (Token.mapSpan change) = mapped
    fun_cases isFunctionHead mapped with
    | case1 =>
      obtain ⟨_, close⟩ := List.cons.inj same
      obtain ⟨_, _, rfl, arrow⟩ := eq_cons_of_mapSpan close
      obtain ⟨_, _, rfl, _⟩ := eq_cons_of_mapSpan arrow
      exact (other _ _ _ rfl).elim
    | case2 =>
      obtain ⟨_, rfl⟩ := List.cons.inj same
      exact isParameterList_mapSpan rest
    | case3 => contradiction
  | case3 => rfl

end Lookahead

theorem Newlines.mapSpan (newlines : Newlines n) : Newlines (n.map (Token.mapSpan change)) := by
  intro token member
  obtain ⟨before, inside, rfl⟩ := List.mem_map.mp member
  exact newlines before inside

theorem ParameterNames.mapSpan (names : ParameterNames params p) :
    ParameterNames params (p.map (Token.mapSpan change)) := by
  induction names with
  | one => exact .one
  | more _ ih => exact .more ih

theorem Parameters.mapSpan (parameters : Parameters params p) :
    Parameters params (p.map (Token.mapSpan change)) := by
  cases parameters with
  | none => exact .none
  | some names => exact .some names.mapSpan

/-- Tokens with other spans spell the same phrase with other spans. -/
theorem Spells.mapSpan (hom : MergeHom change) (spelled : Spells phrase s rest) :
    Spells (phrase.mapSpan change) (s.map (Token.mapSpan change))
      (rest.map (Token.mapSpan change)) := by
  induction spelled with
  | expression _ _ head tail =>
    rw [List.map_append] at head ⊢
    exact .expression head tail
  | operationsEnd ends => exact .operationsEnd (by rw [Lookahead.operator?_mapSpan, ends])
  | operationsMore operator? _ _ head tail =>
    rw [List.map_append] at head
    rw [List.map_cons, List.map_append]
    refine .operationsMore operator? head ?_
    simpa only [Phrase.mapSpan, Expr.mapSpan, hom _ _, Expr.span_mapSpan] using tail
  | call _ _ head tail =>
    rw [List.map_append] at head ⊢
    exact .call head tail
  | suffixesEnd ends => exact .suffixesEnd (by rw [Lookahead.endsSuffixes_mapSpan, ends])
  | suffixesCall _ _ head tail =>
    rw [List.map_append] at head ⊢
    refine .suffixesCall head ?_
    simpa only [Phrase.mapSpan, Expr.mapSpan, hom _ _, Expr.span_mapSpan] using tail
  | suffixesMethod _ _ head tail =>
    rw [List.map_append] at head
    rw [List.map_cons, List.map_cons, List.map_append]
    refine .suffixesMethod head ?_
    simpa only [Phrase.mapSpan, Expr.mapSpan, hom _ _, Expr.span_mapSpan] using tail
  | suffixesBlock isCall _ body =>
    simp only [Phrase.mapSpan, Expr.mapSpan_withTrailingBlock hom]
    exact .suffixesBlock (by rw [Expr.isCall_mapSpan, isCall]) body
  | arguments newlines _ tail =>
    rw [List.map_cons, List.map_append]
    exact .arguments newlines.mapSpan tail
  | argumentsNone => exact .argumentsNone
  | argumentsLast _ newlines head =>
    rw [List.map_append, List.map_cons] at head
    rw [List.map_append, List.map_append]
    exact .argumentsLast head newlines.mapSpan
  | argumentsMore _ newlines newlines' _ head tail =>
    rw [List.map_append, List.map_cons, List.map_append, List.map_append] at head
    rw [List.map_append, List.map_append, List.map_cons, List.map_append]
    exact .argumentsMore head newlines.mapSpan newlines'.mapSpan tail
  | number => exact .number
  | string => exact .string
  | trueWord => exact .trueWord
  | falseWord => exact .falseWord
  | nullWord => exact .nullWord
  | identifier => exact .identifier
  | primaryConditional _ inner => exact .primaryConditional inner
  | primaryBlock _ inner =>
    simp only [Phrase.mapSpan, Expr.mapSpan, ← Block.span_mapSpan change]
    exact .primaryBlock inner
  | primaryFunction _ inner => exact .primaryFunction inner
  | primaryParenthesized _ plain inner =>
    refine .primaryParenthesized inner ?_
    rw [← List.map_append, Lookahead.isFunctionHead_mapSpan, plain]
  | parenthesized newlines _ newlines' inner =>
    rw [List.map_append, List.map_cons] at inner
    rw [List.map_cons, List.map_append, List.map_append, List.map_append]
    simp only [Phrase.mapSpan, Expr.mapSpan_withSpan, hom _ _]
    exact .parenthesized newlines.mapSpan inner newlines'.mapSpan
  | function parameters newlines _ inner =>
    rw [List.map_cons, List.map_append, List.map_cons, List.map_cons, List.map_append]
    simp only [Phrase.mapSpan, Expr.mapSpan, hom _ _, ← Block.span_mapSpan change]
    exact .function parameters.mapSpan newlines.mapSpan inner
  | braced _ inner => exact .braced inner
  | bare _ unbraced inner =>
    simp only [Phrase.mapSpan, Block.mapSpan_ofExpr]
    exact .bare inner (by rw [Lookahead.currentClass_mapSpan]; exact unbraced)
  | conditional _ newlines _ noElse condition branch =>
    rw [List.map_append, List.map_append] at condition
    rw [List.map_cons, List.map_append, List.map_append]
    simp only [Phrase.mapSpan, Expr.mapSpan, hom _ _, ← Block.span_mapSpan change]
    exact .conditional condition newlines.mapSpan branch
      (by rw [Lookahead.elseAhead_mapSpan, noElse])
  | conditionalElse _ newlines _ newlines' _ condition branch other =>
    simp only [List.map_append, List.map_cons] at condition branch ⊢
    simp only [Phrase.mapSpan, Expr.mapSpan, hom _ _, ← Block.span_mapSpan change]
    exact .conditionalElse condition newlines.mapSpan branch newlines'.mapSpan other
  | alternativeConditional _ inner =>
    simp only [Phrase.mapSpan, Block.mapSpan_ofExpr]
    exact .alternativeConditional inner
  | alternative newlines _ plain inner =>
    rw [List.map_append]
    refine .alternative newlines.mapSpan inner ?_
    rw [← List.map_append, Lookahead.currentClass_mapSpan]
    exact plain
  | block newlines _ inner =>
    rw [List.map_cons, List.map_append, List.map_append]
    simp only [Phrase.mapSpan, Block.mapSpan, hom _ _]
    exact .block newlines.mapSpan inner
  | statementsEnd ends =>
    exact .statementsEnd (by rw [Lookahead.endsStatements_mapSpan, ends])
  | statementsMore _ newlines _ head tail =>
    rw [List.map_append, List.map_append] at head
    rw [List.map_append, List.map_append]
    exact .statementsMore head newlines.mapSpan tail
  | declare _ inner =>
    simp only [Phrase.mapSpan, Stmt.mapSpan, hom _ _, ← Expr.span_mapSpan change]
    exact .declare inner
  | assign _ inner =>
    simp only [Phrase.mapSpan, Stmt.mapSpan, hom _ _, ← Expr.span_mapSpan change]
    exact .assign inner
  | forEach _ _ head tail =>
    rw [List.map_append] at head
    rw [List.map_cons, List.map_cons, List.map_cons, List.map_append]
    simp only [Phrase.mapSpan, Stmt.mapSpan, hom _ _, ← Block.span_mapSpan change]
    exact .forEach head tail
  | expressionStatement _ plain inner =>
    simp only [Phrase.mapSpan, Stmt.mapSpan, ← Expr.span_mapSpan change]
    refine .expressionStatement inner ?_
    rw [← List.map_append, Lookahead.startsAssignment_mapSpan, plain]

/-- Tokens spell at most one statement in front of given others. -/
theorem Spells.statement_unique (first : Spells (.statement a) s rest)
    (second : Spells (.statement b) s rest) : a = b := by
  have parsed := first.complete _ (Nat.le_refl _)
  have parsed' := second.complete _ (Nat.le_refl _)
  exact (Prod.mk.inj (Except.ok.inj (parsed.symm.trans parsed'))).1

end PixelScript
