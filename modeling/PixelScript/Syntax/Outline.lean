import PixelScript.Decimal.Format
import PixelScript.Syntax.Tree
import PixelScript.Text.Quoted

/-! Indented outlines of syntax trees. Every part of a tree stands on lines of its
own, four columns further in than what contains it, and ends with a comma. -/
namespace PixelScript

/-- A nested listing: text, named fields, unnamed parts, or a list. -/
inductive Outline where
  | atom (text : String)
  | record (name : String) (fields : List (String × Outline))
  | variant (name : String) (content : Outline)
  | list (items : List Outline)

namespace Outline

def indent (depth : Nat) : String :=
  String.ofList (List.replicate (4 * depth) ' ')

mutual

/-- The lines of an outline whose first line continues one of depth `depth`. -/
def render (depth : Nat) : Outline → String
  | atom text => text
  | record name fields =>
    name ++ " \x7b\n" ++ renderFields (depth + 1) fields ++ indent depth ++ "\x7d"
  | variant name content =>
    name ++ "(\n" ++ indent (depth + 1) ++ render (depth + 1) content ++ ",\n" ++
      indent depth ++ ")"
  | list [] => "[]"
  | list items => "[\n" ++ renderItems (depth + 1) items ++ indent depth ++ "]"

def renderFields (depth : Nat) : List (String × Outline) → String
  | [] => ""
  | (name, content) :: more =>
    indent depth ++ name ++ ": " ++ render depth content ++ ",\n" ++ renderFields depth more

def renderItems (depth : Nat) : List Outline → String
  | [] => ""
  | item :: more => indent depth ++ render depth item ++ ",\n" ++ renderItems depth more

end

def text (content : String) : Outline :=
  atom (Text.quote content)

def span (span : Span) : Outline :=
  atom span.text

def boolean (value : Bool) : Outline :=
  atom (if value then "true" else "false")

/-- A node of the tree: what it is, and where it stands. -/
def node (name : String) (kind : Outline) (place : Span) : Outline :=
  record name [("kind", kind), ("span", span place)]

end Outline

mutual

def Expr.outline : Expr → Outline
  | .number value span => .node "Expr" (.variant "Number" (.atom (Decimal.dump.write value))) span
  | .string content span => .node "Expr" (.variant "Str" (.text content)) span
  | .boolean value span => .node "Expr" (.variant "Bool" (.boolean value)) span
  | .null span => .node "Expr" (.atom "Null") span
  | .identifier name span => .node "Expr" (.variant "Ident" (.text name)) span
  | .function params body span =>
    .node "Expr"
      (.record "Function" [("params", .list (params.map .text)), ("body", body.outline)]) span
  | .call callee args span =>
    .node "Expr"
      (.record "Call" [("callee", callee.outline), ("args", .list (Expr.outlines args))]) span
  | .methodCall receiver method args span =>
    .node "Expr"
      (.record "MethodCall"
        [("receiver", receiver.outline), ("method", .text method),
          ("args", .list (Expr.outlines args))])
      span
  | .block body span => .node "Expr" (.variant "Block" body.outline) span
  | .trailingBlock body span => .node "Expr" (.variant "BlockAsFunction" body.outline) span
  | .conditional condition thenBranch none span =>
    .node "Expr"
      (.record "If"
        [("condition", condition.outline), ("then_branch", thenBranch.outline),
          ("else_branch", .atom "None")])
      span
  | .conditional condition thenBranch (some elseBranch) span =>
    .node "Expr"
      (.record "If"
        [("condition", condition.outline), ("then_branch", thenBranch.outline),
          ("else_branch", .variant "Some" elseBranch.outline)])
      span
  | .operation operator left right span =>
    .node "Expr"
      (.record "Infix"
        [("op", .text operator), ("left", left.outline), ("right", right.outline)]) span

def Expr.outlines : List Expr → List Outline
  | [] => []
  | first :: more => first.outline :: Expr.outlines more

def Stmt.outline : Stmt → Outline
  | .declare name value span =>
    .node "Stmt" (.record "Let" [("name", .text name), ("value", value.outline)]) span
  | .assign name value span =>
    .node "Stmt" (.record "Assign" [("name", .text name), ("value", value.outline)]) span
  | .forEach binding iterable body span =>
    .node "Stmt"
      (.record "For"
        [("binding", .text binding), ("iterable", iterable.outline), ("body", body.outline)])
      span
  | .expr value span => .node "Stmt" (.variant "Expr" value.outline) span

def Stmt.outlines : List Stmt → List Outline
  | [] => []
  | first :: more => first.outline :: Stmt.outlines more

def Block.outline : Block → Outline
  | .mk statements isFunctionBody span =>
    .record "Block"
      [("statements", .list (Stmt.outlines statements)),
        ("is_function_body", .boolean isFunctionBody), ("span", .span span)]

end

def Program.outline (program : Program) : Outline :=
  .record "Program" [("statements", .list (Stmt.outlines program.statements))]

end PixelScript
