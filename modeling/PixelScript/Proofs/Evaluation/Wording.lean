import PixelScript.Evaluation.Interpreter
import PixelScript.Proofs.Syntax.Shape

/-! Code in other words. The code of one run may have other spans, other names and other forms
than that of another, as long as each piece of it matches one piece there. What is allowed is
a parameter, so that evaluation has to be followed only once for all. -/
namespace PixelScript

/-- Code that is evaluated as a whole. -/
inductive Part where
  | expr (value : Expr)
  | args (values : List Expr)
  | block (body : Block)
  | stmts (stmts : List Stmt)
  | stmt (stmt : Stmt)

namespace Part

def nodes : Part → List Node
  | expr value => .expr value :: value.inner
  | args values => Expr.nodes values
  | block body => body.nodes
  | stmts statements => Stmt.nodes statements
  | stmt statement => .stmt statement :: statement.inner

/-- Whether code has the form that the parser gives it. -/
def isShaped : Part → Bool
  | expr value => value.isShaped true
  | args values => Expr.areShaped values
  | block body => body.isShaped body.isFunctionBody
  | stmts statements => Stmt.areShaped statements
  | stmt statement => statement.isShaped

/-- How much code there is. -/
protected noncomputable def size : Part → Nat
  | expr value => sizeOf value
  | args values => sizeOf values
  | block body => sizeOf body
  | stmts statements => sizeOf statements
  | stmt statement => sizeOf statement

/-- The pieces that code consists of. A function that is declared is made without being
evaluated as an expression. -/
def children : Part → List Part
  | expr (.function _ body _) | expr (.trailingBlock body _) | expr (.block body _) => [block body]
  | expr (.call callee values _) => [expr callee, args values]
  | expr (.methodCall receiver _ values _) => [expr receiver, args values]
  | expr (.conditional condition thenBranch none _) => [expr condition, block thenBranch]
  | expr (.conditional condition thenBranch (some elseBranch) _) =>
    [expr condition, block thenBranch, block elseBranch]
  | expr (.operation _ left right _) => [expr left, expr right]
  | expr _ => []
  | args [] => []
  | args (first :: more) => [expr first, args more]
  | block (.mk statements _ _) => [stmts statements]
  | stmts [] => []
  | stmts (first :: more) => [stmt first, stmts more]
  | stmt (.declare _ (.function _ body _) _) => [block body]
  | stmt (.declare _ value _) | stmt (.assign _ value _) | stmt (.expr value _) => [expr value]
  | stmt (.forEach _ iterable body _) => [expr iterable, block body]

/-- The blocks among the pieces that run in the scope of the code itself. -/
def blocks : Part → List Block
  | expr (.block body _) => [body]
  | expr (.conditional _ thenBranch elseBranch _) => thenBranch :: elseBranch.toList
  | stmt (.forEach _ _ body _) => [body]
  | _ => []

end Part

theorem Block.isShaped_isFunctionBody {body : Block} (shaped : body.isShaped flag = true) :
    body.isShaped body.isFunctionBody = true := by
  obtain ⟨stmts, _, _⟩ := body
  simp only [isShaped, Block.isFunctionBody, Bool.and_eq_true, beq_iff_eq] at shaped ⊢
  exact ⟨trivial, shaped.2⟩

theorem Block.isFunctionBody_of_isShaped {body : Block} (shaped : body.isShaped flag = true) :
    body.isFunctionBody = flag := by
  obtain ⟨stmts, _, _⟩ := body
  simp only [isShaped, Bool.and_eq_true, beq_iff_eq] at shaped
  exact shaped.1

namespace Part

variable {part child : Part}

theorem nodes_of_mem_children (inside : child ∈ part.children) : child.nodes ⊆ part.nodes := by
  intro node among
  revert inside
  fun_cases children part <;>
    simp only [List.mem_cons, List.not_mem_nil, or_false, false_imp_iff]
  all_goals
    rintro (rfl | rfl | rfl)
  all_goals
    simp only [nodes, Expr.inner, Expr.nodes, Stmt.inner, Stmt.nodes, Block.nodes, List.mem_cons,
      List.mem_append] at among ⊢
    tauto

theorem size_of_mem_children (inside : child ∈ part.children) : child.size < part.size := by
  revert inside
  fun_cases children part <;>
    simp only [List.mem_cons, List.not_mem_nil, or_false, false_imp_iff]
  all_goals
    rintro (rfl | rfl | rfl)
  all_goals
    simp +arith [Part.size]

theorem isShaped_of_mem_children (shaped : part.isShaped = true) (inside : child ∈ part.children) :
    child.isShaped = true := by
  revert inside
  fun_cases children part <;>
    simp only [List.mem_cons, List.not_mem_nil, or_false, false_imp_iff]
  all_goals
    rintro (rfl | rfl | rfl)
  all_goals
    simp only [isShaped, Expr.isShaped, Expr.areShaped, Stmt.isShaped, Stmt.areShaped,
      Block.isShaped, Bool.and_eq_true] at shaped ⊢
    grind [Expr.isShaped_argument, Block.isShaped_isFunctionBody]

/-- The parser makes function bodies for functions only. -/
theorem isFunctionBody_of_mem_blocks {body : Block} (shaped : part.isShaped = true)
    (inside : body ∈ part.blocks) : body.isFunctionBody = false := by
  apply Block.isFunctionBody_of_isShaped
  revert inside
  fun_cases blocks part with
  | case1 => simp_all [isShaped, Expr.isShaped]
  | case2 _ _ elseBranch =>
    cases elseBranch with
    | none => simp_all [isShaped, Expr.isShaped]
    | some elseBranch =>
      simp only [isShaped, Expr.isShaped, Bool.and_eq_true] at shaped
      simp only [Option.toList_some, List.mem_cons, List.not_mem_nil, or_false]
      rintro (rfl | rfl)
      · exact shaped.1.2
      · exact shaped.2
  | case3 => simp_all [isShaped, Stmt.isShaped]
  | case4 => simp

end Part

/-- The parameters and the body of an expression that makes a closure. -/
def Expr.literal? : Expr → Option (List String × Block)
  | .function params body _ => some (params, body)
  | .trailingBlock body _ => some ([], body)
  | _ => none

/-- Whether a declaration of the expression gives its name to a closure. -/
def Expr.isFunction : Expr → Bool
  | .function .. => true
  | _ => false

/-- How the code of a second run may be worded. The mode of code says which names stand for
which. -/
structure Wording where
  Mode : Type
  /-- How much fuel the second run gets for each unit of the first. -/
  pace : Nat
  spans : Span → Span → Prop
  names : Mode → String → String → Prop
  code : Mode → Part → Part → Prop
  /-- In which modes a function with given parameters that is made in one mode may run. -/
  opens : Mode → List String → Mode → Prop

namespace Wording

variable (link : Wording)

/-- Functions that are written in a mode. -/
def Literal (mode : link.Mode) (literal literal' : List String × Block) : Prop :=
  ∃ inner, link.opens mode literal.1 inner ∧ List.Forall₂ (link.names inner) literal.1 literal'.1 ∧
    link.code inner (.block literal.2) (.block literal'.2)

/-- Pieces of code that are evaluated in the same way, given that their parts correspond. -/
inductive Matches : link.Mode → Part → Part → Prop
  | number (span : link.spans s s') :
      Matches mode (.expr (.number value s)) (.expr (.number value s'))
  | string (span : link.spans s s') :
      Matches mode (.expr (.string text s)) (.expr (.string text s'))
  | boolean (span : link.spans s s') :
      Matches mode (.expr (.boolean value s)) (.expr (.boolean value s'))
  | null (span : link.spans s s') : Matches mode (.expr (.null s)) (.expr (.null s'))
  | identifier (name : link.names mode x x') (span : link.spans s s') :
      Matches mode (.expr (.identifier x s)) (.expr (.identifier x' s'))
  | literal (first : value.literal? = some function) (second : value'.literal? = some function')
      (same : link.Literal mode function function') (span : link.spans value.span value'.span) :
      Matches mode (.expr value) (.expr value')
  | block (body : link.code mode (.block b) (.block b')) (span : link.spans s s') :
      Matches mode (.expr (.block b s)) (.expr (.block b' s'))
  | call (callee : link.code mode (.expr c) (.expr c')) (args : link.code mode (.args a) (.args a'))
      (span : link.spans s s') : Matches mode (.expr (.call c a s)) (.expr (.call c' a' s'))
  | methodCall (receiver : link.code mode (.expr r) (.expr r'))
      (args : link.code mode (.args a) (.args a')) (span : link.spans s s') :
      Matches mode (.expr (.methodCall r method a s)) (.expr (.methodCall r' method a' s'))
  | operation (left : link.code mode (.expr l) (.expr l'))
      (right : link.code mode (.expr r) (.expr r')) (span : link.spans s s') :
      Matches mode (.expr (.operation operator l r s)) (.expr (.operation operator l' r' s'))
  /-- The argument of the method is one step further down than the operand. -/
  | operationMethod (slower : 2 ≤ link.pace) (left : link.code mode (.expr l) (.expr l'))
      (right : link.code mode (.expr r) (.expr r')) (span : link.spans s s') :
      Matches mode (.expr (.operation operator l r s)) (.expr (.methodCall l' operator [r'] s'))
  | methodOperation (slower : 2 ≤ link.pace) (left : link.code mode (.expr l) (.expr l'))
      (right : link.code mode (.expr r) (.expr r')) (span : link.spans s s') :
      Matches mode (.expr (.methodCall l operator [r] s)) (.expr (.operation operator l' r' s'))
  | conditional (condition : link.code mode (.expr c) (.expr c'))
      (branch : link.code mode (.block t) (.block t')) (span : link.spans s s') :
      Matches mode (.expr (.conditional c t none s)) (.expr (.conditional c' t' none s'))
  | conditionalElse (condition : link.code mode (.expr c) (.expr c'))
      (branch : link.code mode (.block t) (.block t'))
      (other : link.code mode (.block e) (.block e')) (span : link.spans s s') :
      Matches mode (.expr (.conditional c t (some e) s)) (.expr (.conditional c' t' (some e') s'))
  | noArgs : Matches mode (.args []) (.args [])
  | args (first : link.code mode (.expr a) (.expr a'))
      (more : link.code mode (.args as) (.args as')) :
      Matches mode (.args (a :: as)) (.args (a' :: as'))
  | body (stmts : link.code mode (.stmts b) (.stmts b')) :
      Matches mode (.block (.mk b isFunctionBody s)) (.block (.mk b' isFunctionBody s'))
  | noStmts : Matches mode (.stmts []) (.stmts [])
  | stmts (first : link.code mode (.stmt a) (.stmt a'))
      (more : link.code mode (.stmts as) (.stmts as')) :
      Matches mode (.stmts (a :: as)) (.stmts (a' :: as'))
  | declare (name : link.names mode x x') (value : link.code mode (.expr v) (.expr v'))
      (plain : v.isFunction = false) (plain' : v'.isFunction = false) (span : link.spans s s') :
      Matches mode (.stmt (.declare x v s)) (.stmt (.declare x' v' s'))
  /-- A closure keeps the name that it is declared with. -/
  | declareFunction (name : link.names mode x x)
      (same : link.Literal mode (params, b) (params', b')) (span : link.spans s s') :
      Matches mode (.stmt (.declare x (.function params b f) s))
        (.stmt (.declare x (.function params' b' f') s'))
  | assign (name : link.names mode x x') (value : link.code mode (.expr v) (.expr v'))
      (span : link.spans s s') : Matches mode (.stmt (.assign x v s)) (.stmt (.assign x' v' s'))
  | forEach (name : link.names mode x x') (iterable : link.code mode (.expr i) (.expr i'))
      (at' : link.spans i.span i'.span) (body : link.code mode (.block b) (.block b'))
      (span : link.spans s s') :
      Matches mode (.stmt (.forEach x i b s)) (.stmt (.forEach x' i' b' s'))
  | expression (value : link.code mode (.expr v) (.expr v')) (span : link.spans s s') :
      Matches mode (.stmt (.expr v s)) (.stmt (.expr v' s'))

variable {link} in
theorem Matches.span_expr {mode : link.Mode} {value value' : Expr}
    (same : link.Matches mode (.expr value) (.expr value')) :
    link.spans value.span value'.span := by
  cases same <;> assumption

variable {link} in
theorem Matches.span_stmt {mode : link.Mode} {stmt stmt' : Stmt}
    (same : link.Matches mode (.stmt stmt) (.stmt stmt')) : link.spans stmt.span stmt'.span := by
  cases same <;> assumption

/-- What evaluation asks of a wording: code matches piece by piece, and names stand for names
one by one. -/
structure Lawful : Prop where
  receiver : ∀ mode, link.names mode Evaluation.selfName Evaluation.selfName
  unique : ∀ {mode x x' y y'}, link.names mode x x' → link.names mode y y' → (x = y ↔ x' = y')
  stays : ∀ mode, link.opens mode [] mode
  matched : ∀ {mode part part'}, link.code mode part part' → link.Matches mode part part'

end Wording

namespace Wording

/-- Code in its own words, as far as it is allowed. -/
def same (allowed : Part → Prop) : Wording where
  Mode := Unit
  pace := 1
  spans span span' := span' = span
  names _ name name' := name' = name
  code _ part part' := part' = part ∧ allowed part
  opens _ _ _ := True

variable {allowed : Part → Prop}

theorem same_literal {params : List String} {body : Block} (inner : allowed (.block body)) :
    (same allowed).Literal () (params, body) (params, body) :=
  ⟨(), trivial, List.forall₂_same.mpr fun _ _ => rfl, rfl, inner⟩

theorem eq_of_same_literal {mode : Unit} {params params' : List String} {body body' : Block}
    (literal : (same allowed).Literal mode (params, body) (params', body')) :
    params' = params ∧ body' = body ∧ allowed (.block body) := by
  obtain ⟨_, _, names, code, inner⟩ := literal
  have names : List.Forall₂ Eq params params' := names.imp fun _ _ same => same.symm
  rw [List.forall₂_eq_eq_eq] at names
  exact ⟨names.symm, Part.block.inj code, inner⟩

theorem matches_expr {value : Expr} (inner : ∀ child ∈ (Part.expr value).children, allowed child) :
    (same allowed).Matches () (.expr value) (.expr value) := by
  cases value with
  | number | string | boolean | null =>
    constructor
    rfl
  | identifier => exact .identifier rfl rfl
  | function params body | trailingBlock body =>
    exact .literal rfl rfl (same_literal (inner _ (.head _))) rfl
  | block => exact .block ⟨rfl, inner _ (.head _)⟩ rfl
  | call => exact .call ⟨rfl, inner _ (.head _)⟩ ⟨rfl, inner _ (.tail _ (.head _))⟩ rfl
  | methodCall => exact .methodCall ⟨rfl, inner _ (.head _)⟩ ⟨rfl, inner _ (.tail _ (.head _))⟩ rfl
  | operation => exact .operation ⟨rfl, inner _ (.head _)⟩ ⟨rfl, inner _ (.tail _ (.head _))⟩ rfl
  | conditional condition thenBranch elseBranch =>
    cases elseBranch with
    | none =>
      exact .conditional ⟨rfl, inner _ (.head _)⟩ ⟨rfl, inner _ (.tail _ (.head _))⟩ rfl
    | some =>
      exact .conditionalElse ⟨rfl, inner _ (.head _)⟩ ⟨rfl, inner _ (.tail _ (.head _))⟩
        ⟨rfl, inner _ (.tail _ (.tail _ (.head _)))⟩ rfl

theorem matches_stmt {stmt : Stmt} (inner : ∀ child ∈ (Part.stmt stmt).children, allowed child) :
    (same allowed).Matches () (.stmt stmt) (.stmt stmt) := by
  cases stmt with
  | declare name value =>
    cases value with
    | function => exact .declareFunction rfl (same_literal (inner _ (.head _))) rfl
    | _ => exact .declare rfl ⟨rfl, inner _ (.head _)⟩ rfl rfl rfl
  | assign => exact .assign rfl ⟨rfl, inner _ (.head _)⟩ rfl
  | forEach =>
    exact .forEach rfl ⟨rfl, inner _ (.head _)⟩ rfl ⟨rfl, inner _ (.tail _ (.head _))⟩ rfl
  | expr => exact .expression ⟨rfl, inner _ (.head _)⟩ rfl

/-- Code matches itself if all that is allowed is so throughout. -/
theorem same_lawful
    (inherited : ∀ {part child}, allowed part → child ∈ part.children → allowed child) :
    (same allowed).Lawful where
  receiver _ := rfl
  unique first second := by rw [first, second]
  stays _ := trivial
  matched := by
    rintro _ _ part ⟨rfl, fine⟩
    have inner : ∀ child ∈ part.children, allowed child := fun _ => inherited fine
    cases part with
    | expr => exact matches_expr inner
    | stmt => exact matches_stmt inner
    | args values =>
      cases values with
      | nil => exact .noArgs
      | cons => exact .args ⟨rfl, inner _ (.head _)⟩ ⟨rfl, inner _ (.tail _ (.head _))⟩
    | stmts stmts =>
      cases stmts with
      | nil => exact .noStmts
      | cons => exact .stmts ⟨rfl, inner _ (.head _)⟩ ⟨rfl, inner _ (.tail _ (.head _))⟩
    | block body =>
      obtain ⟨stmts, _, _⟩ := body
      exact .body ⟨rfl, inner _ (.head _)⟩

end Wording

end PixelScript
