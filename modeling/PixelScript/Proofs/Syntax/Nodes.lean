import Mathlib
import PixelScript.Syntax.Tree

/-! The nodes of syntax trees, and trees with other spans. Two trees are equal up to
spans if they become equal when all spans are made the same. -/
namespace PixelScript

mutual

/-- The expression with `change` applied to every span in it. -/
def Expr.mapSpan (change : Span → Span) : Expr → Expr
  | .number value span => .number value (change span)
  | .string text span => .string text (change span)
  | .boolean value span => .boolean value (change span)
  | .null span => .null (change span)
  | .identifier name span => .identifier name (change span)
  | .function params body span => .function params (body.mapSpan change) (change span)
  | .call callee args span =>
    .call (callee.mapSpan change) (Expr.mapSpans change args) (change span)
  | .methodCall receiver method args span =>
    .methodCall (receiver.mapSpan change) method (Expr.mapSpans change args) (change span)
  | .block body span => .block (body.mapSpan change) (change span)
  | .trailingBlock body span => .trailingBlock (body.mapSpan change) (change span)
  | .conditional condition thenBranch none span =>
    .conditional (condition.mapSpan change) (thenBranch.mapSpan change) none (change span)
  | .conditional condition thenBranch (some elseBranch) span =>
    .conditional (condition.mapSpan change) (thenBranch.mapSpan change)
      (some (elseBranch.mapSpan change)) (change span)
  | .operation operator left right span =>
    .operation operator (left.mapSpan change) (right.mapSpan change) (change span)

def Expr.mapSpans (change : Span → Span) : List Expr → List Expr
  | [] => []
  | first :: more => first.mapSpan change :: Expr.mapSpans change more

def Stmt.mapSpan (change : Span → Span) : Stmt → Stmt
  | .declare name value span => .declare name (value.mapSpan change) (change span)
  | .assign name value span => .assign name (value.mapSpan change) (change span)
  | .forEach binding iterable body span =>
    .forEach binding (iterable.mapSpan change) (body.mapSpan change) (change span)
  | .expr value span => .expr (value.mapSpan change) (change span)

def Stmt.mapSpans (change : Span → Span) : List Stmt → List Stmt
  | [] => []
  | first :: more => first.mapSpan change :: Stmt.mapSpans change more

def Block.mapSpan (change : Span → Span) : Block → Block
  | .mk statements isFunctionBody span =>
    .mk (Stmt.mapSpans change statements) isFunctionBody (change span)

end

mutual

theorem Expr.mapSpan_mapSpan (before after : Span → Span) (value : Expr) :
    (value.mapSpan before).mapSpan after = value.mapSpan (after ∘ before) := by
  match value with
  | .number .. | .string .. | .boolean .. | .null .. | .identifier .. =>
    simp only [Expr.mapSpan, Function.comp]
  | .function _ body _ | .block body _ | .trailingBlock body _ =>
    simp only [Expr.mapSpan, Function.comp, body.mapSpan_mapSpan]
  | .call callee args _ =>
    simp only [Expr.mapSpan, Function.comp, callee.mapSpan_mapSpan, Expr.mapSpans_mapSpans _ _ args]
  | .methodCall receiver _ args _ =>
    simp only [Expr.mapSpan, Function.comp, receiver.mapSpan_mapSpan,
      Expr.mapSpans_mapSpans _ _ args]
  | .conditional condition thenBranch none _ =>
    simp only [Expr.mapSpan, Function.comp, condition.mapSpan_mapSpan, thenBranch.mapSpan_mapSpan]
  | .conditional condition thenBranch (some elseBranch) _ =>
    simp only [Expr.mapSpan, Function.comp, condition.mapSpan_mapSpan, thenBranch.mapSpan_mapSpan,
      elseBranch.mapSpan_mapSpan]
  | .operation _ left right _ =>
    simp only [Expr.mapSpan, Function.comp, left.mapSpan_mapSpan, right.mapSpan_mapSpan]

theorem Expr.mapSpans_mapSpans (before after : Span → Span) (values : List Expr) :
    Expr.mapSpans after (Expr.mapSpans before values) =
      Expr.mapSpans (after ∘ before) values := by
  match values with
  | [] => simp only [Expr.mapSpans]
  | first :: more =>
    simp only [Expr.mapSpans, first.mapSpan_mapSpan, Expr.mapSpans_mapSpans _ _ more]

theorem Stmt.mapSpan_mapSpan (before after : Span → Span) (stmt : Stmt) :
    (stmt.mapSpan before).mapSpan after = stmt.mapSpan (after ∘ before) := by
  match stmt with
  | .declare _ value _ | .assign _ value _ | .expr value _ =>
    simp only [Stmt.mapSpan, Function.comp, value.mapSpan_mapSpan]
  | .forEach _ iterable body _ =>
    simp only [Stmt.mapSpan, Function.comp, iterable.mapSpan_mapSpan, body.mapSpan_mapSpan]

theorem Stmt.mapSpans_mapSpans (before after : Span → Span) (stmts : List Stmt) :
    Stmt.mapSpans after (Stmt.mapSpans before stmts) = Stmt.mapSpans (after ∘ before) stmts := by
  match stmts with
  | [] => simp only [Stmt.mapSpans]
  | first :: more =>
    simp only [Stmt.mapSpans, first.mapSpan_mapSpan, Stmt.mapSpans_mapSpans _ _ more]

theorem Block.mapSpan_mapSpan (before after : Span → Span) (block : Block) :
    (block.mapSpan before).mapSpan after = block.mapSpan (after ∘ before) := by
  match block with
  | .mk statements _ _ =>
    simp only [Block.mapSpan, Function.comp, Stmt.mapSpans_mapSpans _ _ statements]

end

mutual

theorem Expr.mapSpan_id (value : Expr) : value.mapSpan id = value := by
  match value with
  | .number .. | .string .. | .boolean .. | .null .. | .identifier .. =>
    simp only [Expr.mapSpan, id_eq]
  | .function _ body _ | .block body _ | .trailingBlock body _ =>
    simp only [Expr.mapSpan, id_eq, body.mapSpan_id]
  | .call callee args _ =>
    simp only [Expr.mapSpan, id_eq, callee.mapSpan_id, Expr.mapSpans_id args]
  | .methodCall receiver _ args _ =>
    simp only [Expr.mapSpan, id_eq, receiver.mapSpan_id, Expr.mapSpans_id args]
  | .conditional condition thenBranch none _ =>
    simp only [Expr.mapSpan, id_eq, condition.mapSpan_id, thenBranch.mapSpan_id]
  | .conditional condition thenBranch (some elseBranch) _ =>
    simp only [Expr.mapSpan, id_eq, condition.mapSpan_id, thenBranch.mapSpan_id,
      elseBranch.mapSpan_id]
  | .operation _ left right _ =>
    simp only [Expr.mapSpan, id_eq, left.mapSpan_id, right.mapSpan_id]

theorem Expr.mapSpans_id (values : List Expr) : Expr.mapSpans id values = values := by
  match values with
  | [] => simp only [Expr.mapSpans]
  | first :: more => simp only [Expr.mapSpans, first.mapSpan_id, Expr.mapSpans_id more]

theorem Stmt.mapSpan_id (stmt : Stmt) : stmt.mapSpan id = stmt := by
  match stmt with
  | .declare _ value _ | .assign _ value _ | .expr value _ =>
    simp only [Stmt.mapSpan, id_eq, value.mapSpan_id]
  | .forEach _ iterable body _ =>
    simp only [Stmt.mapSpan, id_eq, iterable.mapSpan_id, body.mapSpan_id]

theorem Stmt.mapSpans_id (stmts : List Stmt) : Stmt.mapSpans id stmts = stmts := by
  match stmts with
  | [] => simp only [Stmt.mapSpans]
  | first :: more => simp only [Stmt.mapSpans, first.mapSpan_id, Stmt.mapSpans_id more]

theorem Block.mapSpan_id (block : Block) : block.mapSpan id = block := by
  match block with
  | .mk statements _ _ => simp only [Block.mapSpan, id_eq, Stmt.mapSpans_id statements]

end

def Program.mapSpan (change : Span → Span) (program : Program) : Program :=
  ⟨Stmt.mapSpans change program.statements⟩

/-- A statement or an expression of a tree. -/
inductive Node where
  | stmt (stmt : Stmt)
  | expr (expr : Expr)

mutual

/-- The statements and expressions below an expression, at any depth. -/
def Expr.inner : Expr → List Node
  | .number .. | .string .. | .boolean .. | .null .. | .identifier .. => []
  | .function _ body _ | .block body _ | .trailingBlock body _ => body.nodes
  | .call callee args _ => .expr callee :: (callee.inner ++ Expr.nodes args)
  | .methodCall receiver _ args _ => .expr receiver :: (receiver.inner ++ Expr.nodes args)
  | .conditional condition thenBranch none _ =>
    .expr condition :: (condition.inner ++ thenBranch.nodes)
  | .conditional condition thenBranch (some elseBranch) _ =>
    .expr condition :: (condition.inner ++ (thenBranch.nodes ++ elseBranch.nodes))
  | .operation _ left right _ =>
    .expr left :: (left.inner ++ .expr right :: right.inner)

def Expr.nodes : List Expr → List Node
  | [] => []
  | first :: more => .expr first :: (first.inner ++ Expr.nodes more)

/-- The statements and expressions below a statement, at any depth. -/
def Stmt.inner : Stmt → List Node
  | .declare _ value _ | .assign _ value _ | .expr value _ => .expr value :: value.inner
  | .forEach _ iterable body _ => .expr iterable :: (iterable.inner ++ body.nodes)

def Stmt.nodes : List Stmt → List Node
  | [] => []
  | first :: more => .stmt first :: (first.inner ++ Stmt.nodes more)

def Block.nodes : Block → List Node
  | .mk statements _ _ => Stmt.nodes statements

end

/-- Every statement and every expression of a program. -/
def Program.nodes (program : Program) : List Node :=
  Stmt.nodes program.statements

namespace Node

def span : Node → Span
  | stmt statement => statement.span
  | expr value => value.span

/-- The node as a statement: an expression stands by itself. -/
def toStmt : Node → Stmt
  | stmt statement => statement
  | expr value => .expr value value.span

/-- Whether the node is a block behind a call, which is no expression by itself. -/
def isTrailingBlock : Node → Bool
  | expr (.trailingBlock ..) => true
  | _ => false

@[simp] theorem span_toStmt (node : Node) : node.toStmt.span = node.span := by
  cases node <;> rfl

end Node

theorem Expr.nodes_append (first more : List Expr) :
    Expr.nodes (first ++ more) = Expr.nodes first ++ Expr.nodes more := by
  induction first with
  | nil => rfl
  | cons value values ih => simp [Expr.nodes, ih]

end PixelScript
