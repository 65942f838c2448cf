import PixelScript.Proofs.Syntax.Nodes
import PixelScript.Proofs.Syntax.Phrase

/-! The form of parsed trees. Blocks know whether they are function bodies, which decides
in which scope they run, and a block behind a call is the only expression that can not
stand anywhere: it is one of the last arguments of a call. -/
namespace PixelScript

def Expr.isTrailingBlock : Expr → Bool
  | .trailingBlock .. => true
  | _ => false

mutual

/-- Whether the blocks and operators in an expression are as the parser makes them. Only
an argument may be a block behind a call. -/
def Expr.isShaped (asArgument : Bool) : Expr → Bool
  | .number .. | .string .. | .boolean .. | .null .. | .identifier .. => true
  | .function _ body _ => body.isShaped true
  | .call callee args _ => callee.isShaped false && Expr.areShaped args
  | .methodCall receiver _ args _ => receiver.isShaped false && Expr.areShaped args
  | .block body _ => body.isShaped false
  | .trailingBlock body _ => asArgument && body.isShaped true
  | .conditional condition thenBranch none _ =>
    condition.isShaped false && thenBranch.isShaped false
  | .conditional condition thenBranch (some elseBranch) _ =>
    condition.isShaped false && thenBranch.isShaped false && elseBranch.isShaped false
  | .operation operator left right _ =>
    isOperatorName operator && left.isShaped false && right.isShaped false

/-- Arguments, where nothing but other such blocks follows a block behind the call. -/
def Expr.areShaped : List Expr → Bool
  | [] => true
  | first :: more => first.isShaped true && Expr.areShaped more &&
      (!first.isTrailingBlock || more.all Expr.isTrailingBlock)

def Stmt.isShaped : Stmt → Bool
  | .declare _ value _ | .assign _ value _ | .expr value _ => value.isShaped false
  | .forEach _ iterable body _ => iterable.isShaped false && body.isShaped false

def Stmt.areShaped : List Stmt → Bool
  | [] => true
  | first :: more => first.isShaped && Stmt.areShaped more

def Block.isShaped (asFunctionBody : Bool) : Block → Bool
  | .mk statements isFunctionBody _ =>
    isFunctionBody == asFunctionBody && Stmt.areShaped statements

end

def Program.isShaped (program : Program) : Bool :=
  Stmt.areShaped program.statements

section Spans

variable {change : Span → Span}

theorem Expr.isTrailingBlock_mapSpan (value : Expr) :
    (value.mapSpan change).isTrailingBlock = value.isTrailingBlock := by
  cases value with
  | conditional condition thenBranch elseBranch =>
    cases elseBranch <;> simp only [mapSpan, isTrailingBlock]
  | _ => simp only [mapSpan, isTrailingBlock]

theorem Expr.all_isTrailingBlock_mapSpans (values : List Expr) :
    (mapSpans change values).all isTrailingBlock = values.all isTrailingBlock := by
  induction values with
  | nil => rw [mapSpans]
  | cons value values ih =>
    rw [mapSpans, List.all_cons, List.all_cons, isTrailingBlock_mapSpan, ih]

mutual

/-- The form of a tree does not depend on its spans. -/
theorem Expr.isShaped_mapSpan (asArgument : Bool) (value : Expr) :
    (value.mapSpan change).isShaped asArgument = value.isShaped asArgument := by
  match value with
  | .number .. | .string .. | .boolean .. | .null .. | .identifier .. =>
    simp only [Expr.mapSpan, Expr.isShaped]
  | .function _ body _ | .block body _ | .trailingBlock body _ =>
    simp only [Expr.mapSpan, Expr.isShaped, body.isShaped_mapSpan]
  | .call callee args _ =>
    simp only [Expr.mapSpan, Expr.isShaped, callee.isShaped_mapSpan, Expr.areShaped_mapSpans args]
  | .methodCall receiver _ args _ =>
    simp only [Expr.mapSpan, Expr.isShaped, receiver.isShaped_mapSpan, Expr.areShaped_mapSpans args]
  | .conditional condition thenBranch none _ =>
    simp only [Expr.mapSpan, Expr.isShaped, condition.isShaped_mapSpan, thenBranch.isShaped_mapSpan]
  | .conditional condition thenBranch (some elseBranch) _ =>
    simp only [Expr.mapSpan, Expr.isShaped, condition.isShaped_mapSpan, thenBranch.isShaped_mapSpan,
      elseBranch.isShaped_mapSpan]
  | .operation operator left right _ =>
    simp only [Expr.mapSpan, Expr.isShaped, left.isShaped_mapSpan, right.isShaped_mapSpan]

theorem Expr.areShaped_mapSpans (values : List Expr) :
    Expr.areShaped (Expr.mapSpans change values) = Expr.areShaped values := by
  match values with
  | [] => simp only [Expr.mapSpans, Expr.areShaped]
  | first :: more =>
    simp only [Expr.mapSpans, Expr.areShaped, first.isShaped_mapSpan, Expr.areShaped_mapSpans more,
      Expr.isTrailingBlock_mapSpan, Expr.all_isTrailingBlock_mapSpans]

theorem Stmt.isShaped_mapSpan (stmt : Stmt) :
    (stmt.mapSpan change).isShaped = stmt.isShaped := by
  match stmt with
  | .declare _ value _ | .assign _ value _ | .expr value _ =>
    simp only [Stmt.mapSpan, Stmt.isShaped, value.isShaped_mapSpan]
  | .forEach _ iterable body _ =>
    simp only [Stmt.mapSpan, Stmt.isShaped, iterable.isShaped_mapSpan, body.isShaped_mapSpan]

theorem Stmt.areShaped_mapSpans (stmts : List Stmt) :
    Stmt.areShaped (Stmt.mapSpans change stmts) = Stmt.areShaped stmts := by
  match stmts with
  | [] => simp only [Stmt.mapSpans, Stmt.areShaped]
  | first :: more =>
    simp only [Stmt.mapSpans, Stmt.areShaped, first.isShaped_mapSpan, Stmt.areShaped_mapSpans more]

theorem Block.isShaped_mapSpan (asFunctionBody : Bool) (block : Block) :
    (block.mapSpan change).isShaped asFunctionBody = block.isShaped asFunctionBody := by
  match block with
  | .mk statements _ _ =>
    simp only [Block.mapSpan, Block.isShaped, Stmt.areShaped_mapSpans statements]

end

end Spans

namespace Expr

theorem isTrailingBlock_of_isShaped (shaped : isShaped false value = true) :
    value.isTrailingBlock = false := by
  cases value with
  | trailingBlock => simp [isShaped] at shaped
  | _ => rfl

theorem isShaped_argument (shaped : isShaped false value = true) : value.isShaped true = true := by
  cases value with
  | trailingBlock => simp [isShaped] at shaped
  | conditional condition thenBranch elseBranch =>
    cases elseBranch <;> simpa only [isShaped] using shaped
  | number | string | boolean | null | identifier => simp only [isShaped]
  | _ => simpa only [isShaped] using shaped

theorem isShaped_of_argument (shaped : isShaped true value = true)
    (plain : value.isTrailingBlock = false) : value.isShaped false = true := by
  cases value with
  | trailingBlock => simp [isTrailingBlock] at plain
  | conditional condition thenBranch elseBranch =>
    cases elseBranch <;> simpa only [isShaped] using shaped
  | number | string | boolean | null | identifier => simp only [isShaped]
  | _ => simpa only [isShaped] using shaped

theorem isShaped_withSpan (span : Span) (value : Expr) :
    (value.withSpan span).isShaped asArgument = value.isShaped asArgument := by
  cases value with
  | conditional condition thenBranch elseBranch =>
    cases elseBranch <;> simp only [withSpan, isShaped]
  | _ => simp only [withSpan, isShaped]

theorem areShaped_of_plain (shaped : ∀ value ∈ values, isShaped false value = true) :
    areShaped values = true := by
  induction values with
  | nil => rw [areShaped]
  | cons value values ih =>
    obtain ⟨first, more⟩ := List.forall_mem_cons.mp shaped
    simp [areShaped, isShaped_argument first, ih more, isTrailingBlock_of_isShaped first]

/-- One more block behind a call follows its other arguments. -/
theorem areShaped_append_block {span : Span} (shaped : areShaped values = true)
    (block : body.isShaped true = true) :
    areShaped (values ++ [.trailingBlock body span]) = true := by
  induction values with
  | nil => simpa [areShaped, isShaped] using block
  | cons value values ih =>
    simp only [areShaped, Bool.and_eq_true] at shaped
    obtain ⟨⟨first, more⟩, last⟩ := shaped
    simpa [areShaped, first, ih more, isTrailingBlock] using last

theorem isShaped_withTrailingBlock (isCall : isCall value = true)
    (shaped : value.isShaped false = true) (block : body.isShaped true = true) :
    (value.withTrailingBlock body).isShaped false = true := by
  cases value with
  | call callee args =>
    simp only [isShaped, Bool.and_eq_true] at shaped
    simp [withTrailingBlock, isShaped, shaped.1, areShaped_append_block shaped.2 block]
  | methodCall receiver method args =>
    simp only [isShaped, Bool.and_eq_true] at shaped
    simp [withTrailingBlock, isShaped, shaped.1, areShaped_append_block shaped.2 block]
  | _ => simp [Expr.isCall] at isCall

end Expr

theorem Block.isShaped_ofExpr (shaped : value.isShaped false = true) (asFunctionBody : Bool) :
    (Block.ofExpr value asFunctionBody).isShaped asFunctionBody = true := by
  simp [ofExpr, isShaped, Stmt.areShaped, Stmt.isShaped, shaped]

/-- What a phrase says about the form of trees: those that it gives have it, and so does
one that grows from another that has it. -/
def Phrase.IsShaped : Phrase → Prop
  | expression _ result | call _ result | primary _ result | parenthesized result
  | function _ result | conditional _ result => result.isShaped false = true
  | operations _ left result | suffixes _ left result =>
    left.isShaped false = true → result.isShaped false = true
  | arguments args _ | argumentsTail args _ => ∀ arg ∈ args, arg.isShaped false = true
  | blockOrExpression _ isFunctionBody result | block isFunctionBody result =>
    result.isShaped isFunctionBody = true
  | alternative _ result => result.isShaped false = true
  | statements _ result => Stmt.areShaped result = true
  | statement result => result.isShaped = true

theorem isOperatorName_of_operator? {kind : TokenKind} (found : kind.operator? = some operator) :
    isOperatorName operator = true := by
  cases kind with
  | identifier name =>
    obtain ⟨known, same⟩ := Option.ite_none_right_eq_some.mp found
    exact Option.some.inj same ▸ known
  | _ => contradiction

theorem Spells.isShaped (spelled : Spells phrase s rest) : phrase.IsShaped := by
  induction spelled with
  | expression _ _ head tail | call _ _ head tail => exact tail head
  | operationsEnd | suffixesEnd => exact id
  | operationsMore operator? _ _ head tail =>
    intro shaped
    refine tail ?_
    simp only [Phrase.IsShaped] at head
    simp [Expr.isShaped, shaped, head, isOperatorName_of_operator? operator?]
  | suffixesCall _ _ head tail | suffixesMethod _ _ head tail =>
    intro shaped
    exact tail (by simp [Expr.isShaped, shaped, Expr.areShaped_of_plain head])
  | suffixesBlock isCall _ body =>
    exact fun shaped => Expr.isShaped_withTrailingBlock isCall shaped body
  | arguments _ _ inner | primaryConditional _ inner | primaryFunction _ inner
  | primaryParenthesized _ _ inner | braced _ inner | alternative _ _ _ inner => exact inner
  | argumentsNone => exact nofun
  | argumentsLast _ _ head => exact List.forall_mem_singleton.mpr head
  | argumentsMore _ _ _ _ head tail => exact List.forall_mem_cons.mpr ⟨head, tail⟩
  | number | string | trueWord | falseWord | nullWord | identifier =>
    simp only [Phrase.IsShaped, Expr.isShaped]
  | primaryBlock _ inner => simpa only [Phrase.IsShaped, Expr.isShaped] using inner
  | parenthesized _ _ _ inner => simpa only [Phrase.IsShaped, Expr.isShaped_withSpan] using inner
  | function _ _ _ inner => simpa only [Phrase.IsShaped, Expr.isShaped] using inner
  | bare _ _ inner | alternativeConditional _ inner => exact Block.isShaped_ofExpr inner _
  | conditional _ _ _ _ condition branch =>
    simp only [Phrase.IsShaped] at condition branch
    simp [Phrase.IsShaped, Expr.isShaped, condition, branch]
  | conditionalElse _ _ _ _ _ condition branch other =>
    simp only [Phrase.IsShaped] at condition branch other
    simp [Phrase.IsShaped, Expr.isShaped, condition, branch, other]
  | block _ _ inner => simpa [Phrase.IsShaped, Block.isShaped] using inner
  | statementsEnd => simp only [Phrase.IsShaped, Stmt.areShaped]
  | statementsMore _ _ _ head tail =>
    simp only [Phrase.IsShaped] at head tail
    simp [Phrase.IsShaped, Stmt.areShaped, head, tail]
  | declare _ inner | assign _ inner | expressionStatement _ _ inner =>
    simpa only [Phrase.IsShaped, Stmt.isShaped] using inner
  | forEach _ _ head tail =>
    simp only [Phrase.IsShaped] at head tail
    simp [Phrase.IsShaped, Stmt.isShaped, head, tail]

/-- The form of a part of a parsed tree, which may be an argument. -/
def Node.isShaped : Node → Bool
  | stmt statement => statement.isShaped
  | expr value => value.isShaped true

mutual

/-- The parts of a tree of the right form are of the right form. -/
theorem Expr.isShaped_inner (value : Expr) (shaped : value.isShaped asArgument = true) :
    ∀ node ∈ value.inner, node.isShaped = true := by
  match value with
  | .number .. | .string .. | .boolean .. | .null .. | .identifier .. =>
    simp only [Expr.inner]
    exact nofun
  | .function _ body _ | .block body _ =>
    exact body.isShaped_nodes shaped
  | .trailingBlock body _ =>
    simp only [Expr.isShaped, Bool.and_eq_true] at shaped
    exact body.isShaped_nodes shaped.2
  | .call callee args _ | .methodCall callee _ args _ =>
    simp only [Expr.isShaped, Bool.and_eq_true] at shaped
    simp only [Expr.inner, List.forall_mem_cons, List.forall_mem_append]
    exact ⟨Expr.isShaped_argument shaped.1, callee.isShaped_inner shaped.1,
      Expr.areShaped_nodes args shaped.2⟩
  | .conditional condition thenBranch none _ =>
    simp only [Expr.isShaped, Bool.and_eq_true] at shaped
    simp only [Expr.inner, List.forall_mem_cons, List.forall_mem_append]
    exact ⟨Expr.isShaped_argument shaped.1, condition.isShaped_inner shaped.1,
      thenBranch.isShaped_nodes shaped.2⟩
  | .conditional condition thenBranch (some elseBranch) _ =>
    simp only [Expr.isShaped, Bool.and_eq_true] at shaped
    simp only [Expr.inner, List.forall_mem_cons, List.forall_mem_append]
    exact ⟨Expr.isShaped_argument shaped.1.1, condition.isShaped_inner shaped.1.1,
      thenBranch.isShaped_nodes shaped.1.2, elseBranch.isShaped_nodes shaped.2⟩
  | .operation _ left right _ =>
    simp only [Expr.isShaped, Bool.and_eq_true] at shaped
    simp only [Expr.inner, List.forall_mem_cons, List.forall_mem_append]
    exact ⟨Expr.isShaped_argument shaped.1.2, left.isShaped_inner shaped.1.2,
      Expr.isShaped_argument shaped.2, right.isShaped_inner shaped.2⟩

theorem Expr.areShaped_nodes (values : List Expr) (shaped : Expr.areShaped values = true) :
    ∀ node ∈ Expr.nodes values, node.isShaped = true := by
  match values with
  | [] => exact nofun
  | first :: more =>
    simp only [Expr.areShaped, Bool.and_eq_true] at shaped
    simp only [Expr.nodes, List.forall_mem_cons, List.forall_mem_append]
    exact ⟨shaped.1.1, first.isShaped_inner shaped.1.1, Expr.areShaped_nodes more shaped.1.2⟩

theorem Stmt.isShaped_inner (stmt : Stmt) (shaped : stmt.isShaped = true) :
    ∀ node ∈ stmt.inner, node.isShaped = true := by
  match stmt with
  | .declare _ value _ | .assign _ value _ | .expr value _ =>
    simp only [Stmt.inner, List.forall_mem_cons]
    exact ⟨Expr.isShaped_argument shaped, value.isShaped_inner shaped⟩
  | .forEach _ iterable body _ =>
    simp only [Stmt.isShaped, Bool.and_eq_true] at shaped
    simp only [Stmt.inner, List.forall_mem_cons, List.forall_mem_append]
    exact ⟨Expr.isShaped_argument shaped.1, iterable.isShaped_inner shaped.1,
      body.isShaped_nodes shaped.2⟩

theorem Stmt.areShaped_nodes (stmts : List Stmt) (shaped : Stmt.areShaped stmts = true) :
    ∀ node ∈ Stmt.nodes stmts, node.isShaped = true := by
  match stmts with
  | [] => exact nofun
  | first :: more =>
    simp only [Stmt.areShaped, Bool.and_eq_true] at shaped
    simp only [Stmt.nodes, List.forall_mem_cons, List.forall_mem_append]
    exact ⟨shaped.1, first.isShaped_inner shaped.1, Stmt.areShaped_nodes more shaped.2⟩

theorem Block.isShaped_nodes (block : Block) (shaped : block.isShaped asFunctionBody = true) :
    ∀ node ∈ block.nodes, node.isShaped = true := by
  match block with
  | .mk statements _ _ =>
    simp only [Block.isShaped, Bool.and_eq_true] at shaped
    exact Stmt.areShaped_nodes statements shaped.2

end

end PixelScript
