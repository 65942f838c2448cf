import PixelScript.Proofs.Evaluation.Ending
import PixelScript.Proofs.Syntax.Reparse

/-! Operators and blocks behind calls are other ways to write method calls and functions.
A program that is written without them runs as before, in everything but the code of the
closures that it makes. -/
namespace PixelScript

mutual

/-- An operator is a method of its left operand, and a block behind a call is a function
without parameters. -/
def Expr.desugar : Expr → Expr
  | .number value span => .number value span
  | .string text span => .string text span
  | .boolean value span => .boolean value span
  | .null span => .null span
  | .identifier name span => .identifier name span
  | .function params body span => .function params body.desugar span
  | .call callee args span => .call callee.desugar (Expr.desugars args) span
  | .methodCall receiver method args span =>
    .methodCall receiver.desugar method (Expr.desugars args) span
  | .block body span => .block body.desugar span
  | .trailingBlock body span => .function [] body.desugar span
  | .conditional condition thenBranch none span =>
    .conditional condition.desugar thenBranch.desugar none span
  | .conditional condition thenBranch (some elseBranch) span =>
    .conditional condition.desugar thenBranch.desugar (some elseBranch.desugar) span
  | .operation operator left right span =>
    .methodCall left.desugar operator [right.desugar] span

def Expr.desugars : List Expr → List Expr
  | [] => []
  | first :: more => first.desugar :: Expr.desugars more

def Stmt.desugar : Stmt → Stmt
  | .declare name value span => .declare name value.desugar span
  | .assign name value span => .assign name value.desugar span
  | .forEach binding iterable body span => .forEach binding iterable.desugar body.desugar span
  | .expr value span => .expr value.desugar span

def Stmt.desugars : List Stmt → List Stmt
  | [] => []
  | first :: more => first.desugar :: Stmt.desugars more

def Block.desugar : Block → Block
  | .mk statements isFunctionBody span => .mk (Stmt.desugars statements) isFunctionBody span

end

def Program.desugar (program : Program) : Program :=
  ⟨Stmt.desugars program.statements⟩

def Part.desugar : Part → Part
  | expr value => expr value.desugar
  | args values => args (Expr.desugars values)
  | block body => block body.desugar
  | stmts statements => stmts (Stmt.desugars statements)
  | stmt statement => stmt statement.desugar

theorem Expr.span_desugar (value : Expr) : value.desugar.span = value.span := by
  cases value with
  | conditional condition thenBranch elseBranch =>
    cases elseBranch <;> simp only [desugar, span]
  | _ => simp only [desugar, span]

/-- Only an argument can become a function that it was not. -/
theorem Expr.isFunction_desugar {value : Expr} (shaped : value.isShaped false = true) :
    value.desugar.isFunction = value.isFunction := by
  cases value with
  | trailingBlock => simp [isShaped] at shaped
  | conditional condition thenBranch elseBranch =>
    cases elseBranch <;> simp only [desugar, isFunction]
  | _ => simp only [desugar, isFunction]

namespace Correspondence

/-- Code in the form that the parser gives it, and the same code without sugar. -/
def sugar : Correspondence :=
  plain 2 Eq fun part part' => part.isShaped = true ∧ part' = part.desugar

theorem sugar_block {body : Block} (shaped : body.isShaped flag = true) :
    sugar.code () (.block body) (.block body.desugar) :=
  ⟨Block.isShaped_isFunctionBody shaped, rfl⟩

theorem sugar_expr {value : Expr} (shaped : value.isShaped true = true) :
    sugar.Matches () (.expr value) (.expr value.desugar) := by
  have code : ∀ {value : Expr}, value.isShaped false = true →
      sugar.code () (.expr value) (.expr value.desugar) :=
    fun shaped => ⟨Expr.isShaped_argument shaped, rfl⟩
  cases value with
  | number | string | boolean | null =>
    rw [Expr.desugar]
    constructor
    rfl
  | identifier name =>
    rw [Expr.desugar]
    exact .identifier rfl rfl
  | function params body =>
    rw [Expr.isShaped] at shaped
    rw [Expr.desugar]
    exact .literal rfl rfl (plain_literal (sugar_block shaped)) rfl
  | trailingBlock body =>
    simp only [Expr.isShaped, Bool.true_and] at shaped
    rw [Expr.desugar]
    exact .literal rfl rfl (plain_literal (sugar_block shaped)) rfl
  | block body =>
    rw [Expr.isShaped] at shaped
    rw [Expr.desugar]
    exact .block (sugar_block shaped) rfl
  | call callee args =>
    simp only [Expr.isShaped, Bool.and_eq_true] at shaped
    rw [Expr.desugar]
    exact .call (code shaped.1) ⟨shaped.2, rfl⟩ rfl
  | methodCall receiver method args =>
    simp only [Expr.isShaped, Bool.and_eq_true] at shaped
    rw [Expr.desugar]
    exact .methodCall (code shaped.1) ⟨shaped.2, rfl⟩ rfl
  | conditional condition thenBranch elseBranch =>
    cases elseBranch with
    | none =>
      simp only [Expr.isShaped, Bool.and_eq_true] at shaped
      rw [Expr.desugar]
      exact .conditional (code shaped.1) (sugar_block shaped.2) rfl
    | some elseBranch =>
      simp only [Expr.isShaped, Bool.and_eq_true] at shaped
      rw [Expr.desugar]
      exact .conditionalElse (code shaped.1.1) (sugar_block shaped.1.2) (sugar_block shaped.2) rfl
  | operation operator left right =>
    simp only [Expr.isShaped, Bool.and_eq_true] at shaped
    rw [Expr.desugar]
    exact .operationMethod (Nat.le_refl 2) (code shaped.1.2) (code shaped.2) rfl

theorem sugar_stmt {stmt : Stmt} (shaped : stmt.isShaped = true) :
    sugar.Matches () (.stmt stmt) (.stmt stmt.desugar) := by
  have code : ∀ {value : Expr}, value.isShaped false = true →
      sugar.code () (.expr value) (.expr value.desugar) :=
    fun shaped => ⟨Expr.isShaped_argument shaped, rfl⟩
  cases stmt with
  | declare name value =>
    rw [Stmt.isShaped] at shaped
    rw [Stmt.desugar]
    cases literal : value.isFunction with
    | false =>
      exact .declare rfl (code shaped) literal
        (by rw [Expr.isFunction_desugar shaped, literal]) rfl
    | true =>
      cases value with
      | function params body =>
        rw [Expr.isShaped] at shaped
        rw [Expr.desugar]
        exact .declareFunction rfl (plain_literal (sugar_block shaped)) rfl
      | _ => contradiction
  | assign name value =>
    rw [Stmt.isShaped] at shaped
    rw [Stmt.desugar]
    exact .assign rfl (code shaped) rfl
  | forEach binding iterable body =>
    simp only [Stmt.isShaped, Bool.and_eq_true] at shaped
    rw [Stmt.desugar]
    exact .forEach rfl (code shaped.1) iterable.span_desugar.symm (sugar_block shaped.2) rfl
  | expr value =>
    rw [Stmt.isShaped] at shaped
    rw [Stmt.desugar]
    exact .expression (code shaped) rfl

theorem sugar_lawful : sugar.Lawful := by
  refine plain_lawful (Nat.le_succ 1) ?_
  rintro part _ ⟨shaped, rfl⟩
  cases part with
  | expr value => exact sugar_expr shaped
  | stmt stmt => exact sugar_stmt shaped
  | args values =>
    cases values with
    | nil =>
      rw [Part.desugar, Expr.desugars]
      exact .noArgs
    | cons first more =>
      simp only [Part.isShaped, Expr.areShaped, Bool.and_eq_true] at shaped
      rw [Part.desugar, Expr.desugars]
      exact .args ⟨shaped.1.1, rfl⟩ ⟨shaped.1.2, rfl⟩
  | stmts stmts =>
    cases stmts with
    | nil =>
      rw [Part.desugar, Stmt.desugars]
      exact .noStmts
    | cons first more =>
      simp only [Part.isShaped, Stmt.areShaped, Bool.and_eq_true] at shaped
      rw [Part.desugar, Stmt.desugars]
      exact .stmts ⟨shaped.1, rfl⟩ ⟨shaped.2, rfl⟩
  | block body =>
    obtain ⟨stmts, _, _⟩ := body
    simp only [Part.isShaped, Block.isShaped, Bool.and_eq_true] at shaped
    rw [Part.desugar, Block.desugar]
    exact .body ⟨shaped.2, rfl⟩

theorem sugar_bodies {body body' : Block} (same : sugar.code () (.block body) (.block body')) :
    body' = body.desugar :=
  Part.block.inj same.2

end Correspondence

open Correspondence in
/-- A parsed program without its operators and its blocks behind calls ends if the program
does, and in the same way: the result or the fault with its place, the printed text and
everything else in the machine is the same, but closures have bodies without sugar. -/
theorem Program.desugar_ends_iff {program : Program} (parsed : Program.parse source = .ok program)
    (limits : Limits) (silent : Bool) (outcome' : Outcome Value) :
    program.desugar.Ends limits Machine.globalScope (.fresh silent) outcome' ↔
      ∃ outcome, program.Ends limits Machine.globalScope (.fresh silent) outcome ∧
        outcome' = outcome.view id Block.desugar := by
  have same : sugar.code () (.stmts program.statements) (.stmts program.desugar.statements) :=
    ⟨Program.isShaped_of_parse parsed, rfl⟩
  constructor
  · intro ends
    obtain ⟨outcome, ends', seen⟩ :
        ∃ outcome, program.Ends limits Machine.globalScope (.fresh silent) outcome ∧
          outcome.view id Block.desugar = outcome'.view id id :=
      plain_ends (sugar_lawful.plain_flip (Nat.le_refl 2) Eq.symm) same (plain_fresh silent)
        (fun same => same.eq Eq.symm) (fun same => (sugar_bodies same).symm) ends
    exact ⟨outcome, ends', by rw [seen, Outcome.view_id]⟩
  · rintro ⟨outcome, ends, rfl⟩
    obtain ⟨outcome', ends', seen⟩ :
        ∃ outcome', program.desugar.Ends limits Machine.globalScope (.fresh silent) outcome' ∧
          outcome'.view id id = outcome.view id Block.desugar :=
      plain_ends sugar_lawful same (plain_fresh silent) (fun same => same.eq Eq.symm)
        sugar_bodies ends
    rwa [← seen, Outcome.view_id]

/-- A block behind a call, with an operator in it, is called as a function that calls a
method. -/
theorem Program.desugar_ends_block :
    let source := "let f = (b) => b()\nf() \x7b true == true \x7d"
    let call : Block := .mk [.expr (.call (.identifier "b" ⟨15, 16⟩) [] ⟨15, 18⟩) ⟨15, 18⟩]
      true ⟨15, 18⟩
    let test : Block := .mk [.expr (.operation "equals" (.boolean true ⟨25, 29⟩)
      (.boolean true ⟨33, 37⟩) ⟨25, 37⟩) ⟨25, 37⟩] true ⟨23, 39⟩
    let test' : Block := .mk [.expr (.methodCall (.boolean true ⟨25, 29⟩) "equals"
      [.boolean true ⟨33, 37⟩] ⟨25, 37⟩) ⟨25, 37⟩] true ⟨23, 39⟩
    let program (last : Expr) : Program := ⟨[.declare "f" (.function ["b"] call ⟨8, 18⟩) ⟨0, 18⟩,
      .expr (.call (.identifier "f" ⟨19, 20⟩) [last] ⟨19, 39⟩) ⟨19, 39⟩]⟩
    let machine (last : Block) : Machine := { Machine.fresh true with
      frames := #[Machine.globalBindings ++ [("f", .closure 0)], [("b", .closure 1)], []]
      closures := #[⟨["b"], call, [0], some "f"⟩, ⟨[], last, [0], none⟩] }
    Program.parse source = .ok (program (.trailingBlock test ⟨23, 39⟩)) ∧
      (program (.function [] test' ⟨23, 39⟩)).Ends {} Machine.globalScope (.fresh true)
        (.value (.boolean true) (machine test')) := by
  intro source call test test' program machine
  have parsed : Program.parse source = .ok (program (.trailingBlock test ⟨23, 39⟩)) := by cbv
  have ends : (program (.trailingBlock test ⟨23, 39⟩)).Ends {} Machine.globalScope (.fresh true)
      (.value (.boolean true) (machine test)) := ⟨by simp, 20, by cbv⟩
  have same : .value (.boolean true) (machine test') =
      Outcome.view id Block.desugar (.value (Value.boolean true) (machine test)) := by
    cbv
  exact ⟨parsed, (Program.desugar_ends_iff parsed {} true _).mpr ⟨_, ends, same⟩⟩

end PixelScript
