import PixelScript.Source.Span

/-! Syntax trees. Every statement, expression and block carries the span of its text;
a parenthesised expression carries the span of its parentheses. -/
namespace PixelScript

mutual
inductive Expr where
  | number (value : Float) (span : Span)
  | string (text : String) (span : Span)
  | boolean (value : Bool) (span : Span)
  | null (span : Span)
  | identifier (name : String) (span : Span)
  | function (params : List String) (body : Block) (span : Span)
  | call (callee : Expr) (args : List Expr) (span : Span)
  | methodCall (receiver : Expr) (method : String) (args : List Expr) (span : Span)
  | block (body : Block) (span : Span)
  /-- A block behind a call, passed as a function without parameters. -/
  | trailingBlock (body : Block) (span : Span)
  | conditional (condition : Expr) (thenBranch : Block) (elseBranch : Option Block) (span : Span)
  | operation (operator : String) (left right : Expr) (span : Span)

inductive Stmt where
  | declare (name : String) (value : Expr) (span : Span)
  | assign (name : String) (value : Expr) (span : Span)
  | forEach (binding : String) (iterable : Expr) (body : Block) (span : Span)
  | expr (value : Expr) (span : Span)

/-- A sequence of statements. A function body shares the scope of its call; any other
block opens a scope of its own. -/
inductive Block where
  | mk (statements : List Stmt) (isFunctionBody : Bool) (span : Span)
end

structure Program where
  statements : List Stmt

namespace Expr

def span : Expr → Span
  | number _ span | string _ span | boolean _ span | null span | identifier _ span
  | function _ _ span | call _ _ span | methodCall _ _ _ span | block _ span
  | trailingBlock _ span | conditional _ _ _ span | operation _ _ _ span => span

/-- The same expression as the text of another span. -/
def withSpan (span : Span) : Expr → Expr
  | number value _ => number value span
  | string text _ => string text span
  | boolean value _ => boolean value span
  | null _ => null span
  | identifier name _ => identifier name span
  | function params body _ => function params body span
  | call callee args _ => call callee args span
  | methodCall receiver method args _ => methodCall receiver method args span
  | block body _ => block body span
  | trailingBlock body _ => trailingBlock body span
  | conditional condition thenBranch elseBranch _ =>
    conditional condition thenBranch elseBranch span
  | operation operator left right _ => operation operator left right span

end Expr

def Stmt.span : Stmt → Span
  | declare _ _ span | assign _ _ span | forEach _ _ _ span | expr _ span => span

namespace Block

def statements : Block → List Stmt
  | mk statements _ _ => statements

def isFunctionBody : Block → Bool
  | mk _ isFunctionBody _ => isFunctionBody

def span : Block → Span
  | mk _ _ span => span

/-- A bare expression in the place of a block. -/
def ofExpr (value : Expr) (isFunctionBody : Bool) : Block :=
  mk [.expr value value.span] isFunctionBody value.span

end Block

/-- Passes a block as the last argument of a call; other expressions take none. -/
def Expr.withTrailingBlock (body : Block) : Expr → Expr
  | .call callee args span =>
    .call callee (args ++ [.trailingBlock body body.span]) (span.merge body.span)
  | .methodCall receiver method args span =>
    .methodCall receiver method (args ++ [.trailingBlock body body.span]) (span.merge body.span)
  | value => value

def Expr.isCall : Expr → Bool
  | .call .. | .methodCall .. => true
  | _ => false

end PixelScript
