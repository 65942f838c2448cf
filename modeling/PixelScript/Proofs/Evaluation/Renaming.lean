import PixelScript.Proofs.Evaluation.Ending

/-! Parameters may have any name. Where a parameter of one function has another name, and the
function uses that name for it throughout, every run ends as before. Code outside of the
function never sees the frames of its calls, and code inside always finds the parameter
before it comes to a frame from outside. -/
namespace PixelScript

/-- The names that a node itself reads or binds. -/
def Node.names : Node → List String
  | .expr (.identifier name _) => [name]
  | .expr (.function params _ _) => params
  | .stmt (.declare name _ _) | .stmt (.assign name _ _) | .stmt (.forEach name _ _ _) => [name]
  | _ => []

/-- Another name for a parameter of one function. The function does not use the new name for
anything, and it does not give the old one to a closure, which would show it. -/
structure Renaming where
  params : List String
  body : Block
  span : Span
  old : String
  new : String
  parameter : old ∈ params
  old_ne_self : old ≠ Evaluation.selfName
  new_ne_self : new ≠ Evaluation.selfName
  fresh : new ∉ params ∧ ∀ node ∈ body.nodes, new ∉ node.names
  unnamed : ∀ params' body' literal declaration,
    .stmt (.declare old (.function params' body' literal) declaration) ∉ body.nodes

namespace Renaming

def function (change : Renaming) : Expr :=
  .function change.params change.body change.span

def apply (change : Renaming) (name : String) : String :=
  if name = change.old then change.new else name

end Renaming

section Trees

variable (change : Renaming)

mutual

/-- The expression with the new name wherever the old one is a parameter, is read, assigned
to or declared, or is bound by a loop. Names of methods and operators stay. -/
def Expr.rename : Expr → Expr
  | .number value span => .number value span
  | .string text span => .string text span
  | .boolean value span => .boolean value span
  | .null span => .null span
  | .identifier name span => .identifier (change.apply name) span
  | .function params body span => .function (params.map change.apply) body.rename span
  | .call callee args span => .call callee.rename (Expr.renames args) span
  | .methodCall receiver method args span =>
    .methodCall receiver.rename method (Expr.renames args) span
  | .block body span => .block body.rename span
  | .trailingBlock body span => .trailingBlock body.rename span
  | .conditional condition thenBranch none span =>
    .conditional condition.rename thenBranch.rename none span
  | .conditional condition thenBranch (some elseBranch) span =>
    .conditional condition.rename thenBranch.rename (some elseBranch.rename) span
  | .operation operator left right span => .operation operator left.rename right.rename span

def Expr.renames : List Expr → List Expr
  | [] => []
  | first :: more => first.rename :: Expr.renames more

def Stmt.rename : Stmt → Stmt
  | .declare name value span => .declare (change.apply name) value.rename span
  | .assign name value span => .assign (change.apply name) value.rename span
  | .forEach binding iterable body span =>
    .forEach (change.apply binding) iterable.rename body.rename span
  | .expr value span => .expr value.rename span

def Stmt.renames : List Stmt → List Stmt
  | [] => []
  | first :: more => first.rename :: Stmt.renames more

def Block.rename : Block → Block
  | .mk statements isFunctionBody span => .mk (Stmt.renames statements) isFunctionBody span

end

open Classical in
mutual

/-- The expression with the new name in the function. -/
noncomputable def Expr.renameIn : Expr → Expr
  | .number value span => .number value span
  | .string text span => .string text span
  | .boolean value span => .boolean value span
  | .null span => .null span
  | .identifier name span => .identifier name span
  | .function params body span =>
    if .function params body span = change.function then .function (params.map change.apply)
      (body.rename change) span
    else .function params body.renameIn span
  | .call callee args span => .call callee.renameIn (Expr.renamesIn args) span
  | .methodCall receiver method args span =>
    .methodCall receiver.renameIn method (Expr.renamesIn args) span
  | .block body span => .block body.renameIn span
  | .trailingBlock body span => .trailingBlock body.renameIn span
  | .conditional condition thenBranch none span =>
    .conditional condition.renameIn thenBranch.renameIn none span
  | .conditional condition thenBranch (some elseBranch) span =>
    .conditional condition.renameIn thenBranch.renameIn (some elseBranch.renameIn) span
  | .operation operator left right span => .operation operator left.renameIn right.renameIn span

noncomputable def Expr.renamesIn : List Expr → List Expr
  | [] => []
  | first :: more => first.renameIn :: Expr.renamesIn more

noncomputable def Stmt.renameIn : Stmt → Stmt
  | .declare name value span => .declare name value.renameIn span
  | .assign name value span => .assign name value.renameIn span
  | .forEach binding iterable body span => .forEach binding iterable.renameIn body.renameIn span
  | .expr value span => .expr value.renameIn span

noncomputable def Stmt.renamesIn : List Stmt → List Stmt
  | [] => []
  | first :: more => first.renameIn :: Stmt.renamesIn more

noncomputable def Block.renameIn : Block → Block
  | .mk statements isFunctionBody span => .mk (Stmt.renamesIn statements) isFunctionBody span

end

noncomputable def Program.renameIn (program : Program) : Program :=
  ⟨Stmt.renamesIn change program.statements⟩

end Trees

namespace Part

def rename (change : Renaming) : Part → Part
  | expr value => expr (value.rename change)
  | args values => args (Expr.renames change values)
  | block body => block (body.rename change)
  | stmts statements => stmts (Stmt.renames change statements)
  | stmt statement => stmt (statement.rename change)

noncomputable def renameIn (change : Renaming) : Part → Part
  | expr value => expr (value.renameIn change)
  | args values => args (Expr.renamesIn change values)
  | block body => block (body.renameIn change)
  | stmts statements => stmts (Stmt.renamesIn change statements)
  | stmt statement => stmt (statement.renameIn change)

end Part

namespace Renaming

/-- Where code stands: outside of the function, or inside. -/
inductive Side where
  | outside
  | inside

/-- What a frame was opened for: code outside, a call of the function, or code inside. -/
inductive FrameKind where
  | outside
  | entry
  | inside

def FrameKind.side : FrameKind → Side
  | outside => .outside
  | entry | inside => .inside

variable (change : Renaming)

/-- The names that stand for each other in two runs. -/
def Names : Side → String → String → Prop
  | .outside, name, name' => name' = name
  | .inside, name, name' => name ≠ change.new ∧ name' = change.apply name

/-- Frames in two runs: a call of the function binds the old name. -/
structure Framed (world : List FrameKind) (frames frames' : Array Bindings) : Prop where
  size : frames.size = world.length
  size' : frames'.size = frames.size
  same : ∀ (id : FrameId) kind, world[id]? = some kind →
    Table.Related (change.Names kind.side) (fun value value' => value' = value)
      (frames[id]?.getD []) (frames'[id]?.getD [])
  bound : ∀ id : FrameId, world[id]? = some .entry →
    (Table.get? change.old (frames[id]?.getD [])).isSome = true

/-- Scopes of code: from inside, frames of the function lead to its call and then outside. -/
inductive Placed (world : List FrameKind) : Side → Scope → Prop
  | outside (frames : ∀ frame ∈ scope, world[frame]? = some .outside) : Placed world .outside scope
  | entry (call : world[frame]? = some .entry) (outer : Placed world .outside scope) :
      Placed world .inside (frame :: scope)
  | inside (inner : world[frame]? = some .inside) (outer : Placed world .inside scope) :
      Placed world .inside (frame :: scope)

/-- A function that is written in some place runs there, and the renamed one runs inside. -/
def Opens : Side → List String → Side → Prop
  | .outside, _, .outside | .inside, _, .inside => True
  | .outside, params, .inside => change.old ∈ params
  | .inside, _, .outside => False

end Renaming

open Renaming in
/-- Code outside of the function with the new name in it, and code inside with the new name. -/
noncomputable def Renaming.link (change : Renaming) : Correspondence where
  Mode := Side
  World := List FrameKind
  pace := 1
  spans := Eq
  names := change.Names
  code
    | .outside, part, part' => part' = part.renameIn change
    | .inside, part, part' => part.nodes ⊆ change.body.nodes ∧ part' = part.rename change
  opens := change.Opens
  grown world later := world <+: later
  frames := change.Framed
  placed := Placed

namespace Renaming

variable {change : Renaming}

theorem apply_self (change : Renaming) :
    change.apply Evaluation.selfName = Evaluation.selfName :=
  if_neg change.old_ne_self.symm

theorem names_unique {side : Side} (first : change.Names side x x')
    (second : change.Names side y y') : x = y ↔ x' = y' := by
  cases side with
  | outside => rw [first, second]
  | inside =>
    obtain ⟨freshX, rfl⟩ := first
    obtain ⟨freshY, rfl⟩ := second
    unfold apply
    grind

/-- Away from the old name, code inside sees the same names as code outside. -/
theorem Names.outside {side : Side} (names : change.Names side x x') (other : x ≠ change.old) :
    x' = x := by
  cases side with
  | outside => exact names
  | inside => rw [names.2, apply, if_neg other]

section Frames

variable {world later : List FrameKind} {machine machine' : Machine}

/-- A name is in a frame if the name that stands for it is in the other. -/
theorem Framed.get? (framed : change.Framed world machine.frames machine'.frames)
    (kind : world[frame]? = some k) (names : change.Names k.side x x') :
    (machine'.bindings frame).get? x' = (machine.bindings frame).get? x := by
  have found := Table.Related.get? names_unique (framed.same frame k kind) names
  rw [Machine.bindings, Machine.bindings]
  generalize Table.get? x _ = own, Table.get? x' _ = other at found ⊢
  cases found with
  | some same => rw [same]
  | none => rfl

theorem Framed.resolve?_outside (framed : change.Framed world machine.frames machine'.frames)
    (outside : ∀ frame ∈ scope, world[frame]? = some .outside) (name : String) :
    machine'.resolve? name scope = machine.resolve? name scope := by
  induction scope with
  | nil => rfl
  | cons frame scope ih =>
    obtain ⟨here, outer⟩ := List.forall_mem_cons.mp outside
    rw [Machine.resolve?, Machine.resolve?, framed.get? here rfl, ih outer]

/-- A name that a call of the function does not bind is another than the old one. -/
theorem Framed.ne_old (framed : change.Framed world machine.frames machine'.frames)
    (call : world[frame]? = some .entry) (none : (machine.bindings frame).get? x = none) :
    x ≠ change.old := by
  rintro rfl
  have bound := framed.bound frame call
  change ((machine.bindings frame).get? change.old).isSome = true at bound
  rw [none] at bound
  contradiction

theorem Framed.resolve? (framed : change.Framed world machine.frames machine'.frames)
    (placed : Placed world side scope) (names : change.Names side x x') :
    machine'.resolve? x' scope = machine.resolve? x scope := by
  induction placed with
  | outside frames => rw [names, framed.resolve?_outside frames]
  | entry call outer =>
    rw [Machine.resolve?, Machine.resolve?, framed.get? call names]
    cases found : (machine.bindings _).get? x with
    | some => rfl
    | none =>
      cases outer with
      | outside frames =>
        rw [names.outside (framed.ne_old call found)]
        exact framed.resolve?_outside frames x
  | inside inner _ ih =>
    rw [Machine.resolve?, Machine.resolve?, framed.get? inner names, ih names]

/-- The old name is always found from inside. -/
theorem Framed.unbound (framed : change.Framed world machine.frames machine'.frames)
    (placed : Placed world side scope) (names : change.Names side x x')
    (none : machine.resolve? x scope = none) : x' = x := by
  induction placed with
  | outside => exact names
  | entry call outer =>
    rw [Machine.resolve?] at none
    split at none
    next => contradiction
    next found => exact names.outside (framed.ne_old call found)
  | inside _ _ ih =>
    rw [Machine.resolve?] at none
    split at none
    next => contradiction
    next => exact ih names none

/-- A frame that code binds a name in has the name that stands for it too. -/
theorem Framed.binds (framed : change.Framed world machine.frames machine'.frames)
    (placed : Placed world side scope) (names : change.Names side x x')
    (target : scope.head? = some frame ∨ ∃ old, machine.resolve? x scope = some (frame, old)) :
    ∃ kind, world[frame]? = some kind ∧ change.Names kind.side x x' := by
  induction placed with
  | outside frames =>
    refine ⟨.outside, frames frame ?_, names⟩
    obtain first | ⟨_, found⟩ := target
    · exact List.mem_of_head? first
    · exact (Machine.resolve?_eq_some found).1
  | entry call outer =>
    obtain first | ⟨_, found⟩ := target
    · obtain rfl := Option.some.inj first
      exact ⟨.entry, call, names⟩
    · rw [Machine.resolve?] at found
      split at found
      next =>
        obtain ⟨rfl, _⟩ := Prod.mk.inj (Option.some.inj found)
        exact ⟨.entry, call, names⟩
      next unbound =>
        cases outer with
        | outside frames =>
          exact ⟨.outside, frames frame (Machine.resolve?_eq_some found).1,
            names.outside (framed.ne_old call unbound)⟩
  | inside inner _ ih =>
    obtain first | ⟨_, found⟩ := target
    · obtain rfl := Option.some.inj first
      exact ⟨.inside, inner, names⟩
    · rw [Machine.resolve?] at found
      split at found
      next =>
        obtain ⟨rfl, _⟩ := Prod.mk.inj (Option.some.inj found)
        exact ⟨.inside, inner, names⟩
      next => exact ih names (.inr ⟨_, found⟩)

theorem Framed.bindIn (framed : change.Framed world machine.frames machine'.frames)
    (kind : world[frame]? = some k) (names : change.Names k.side x x') (value : Value) :
    change.Framed world (machine.bindIn frame x value).frames
      (machine'.bindIn frame x' value).frames where
  size := by rw [Machine.size_bindIn, framed.size]
  size' := by rw [Machine.size_bindIn, Machine.size_bindIn, framed.size']
  same id other here := by
    have entries := framed.same id other here
    have inside : id < machine.frames.size := by
      rw [framed.size]
      exact (List.getElem?_eq_some_iff.mp here).1
    have inside' : id < machine'.frames.size := framed.size' ▸ inside
    simp only [Machine.bindIn, Array.getElem?_modify]
    by_cases same : frame = id
    · subst same
      obtain rfl := Option.some.inj (kind.symm.trans here)
      simp only [Array.getElem?_eq_getElem inside, Array.getElem?_eq_getElem inside',
        Option.getD_some, if_true, Option.map_some] at entries ⊢
      exact entries.insert names_unique names rfl
    · simpa [same] using entries
  bound id call := by
    have bound := framed.bound id call
    change ((machine.bindings id).get? change.old).isSome = true at bound
    change (((machine.bindIn frame x value).bindings id).get? change.old).isSome = true
    rw [Machine.get?_bindIn]
    split
    · rfl
    · exact bound

/-- The kinds of frames after one more is opened. -/
theorem kind_concat {kind other : FrameKind} {id : Nat}
    (here : (world ++ [kind])[id]? = some other) :
    (id = world.length ∧ other = kind) ∨ (id ≠ world.length ∧ world[id]? = some other) := by
  by_cases new : id = world.length
  · subst new
    rw [List.getElem?_concat_length] at here
    exact .inl ⟨rfl, (Option.some.inj here).symm⟩
  · have bound := (List.getElem?_eq_some_iff.mp here).1
    rw [List.length_append, List.length_singleton] at bound
    rw [List.getElem?_append_left (by omega)] at here
    exact .inr ⟨new, here⟩

/-- A new frame, for the call of a function or for a block. -/
theorem Framed.push {frames frames' : Array Bindings} {bindings bindings' : Bindings}
    (framed : change.Framed world frames frames') (kind : FrameKind)
    (entries : Table.Related (change.Names kind.side) (fun value value' => value' = value)
      bindings bindings')
    (bound : kind = .entry → (bindings.get? change.old).isSome = true) :
    change.Framed (world ++ [kind]) (frames.push bindings) (frames'.push bindings') where
  size := by simp [framed.size]
  size' := by simp [framed.size']
  same id other here := by
    simp only [Array.getElem?_push, framed.size', framed.size]
    obtain ⟨rfl, rfl⟩ | ⟨old, here⟩ := kind_concat here
    · simpa using entries
    · rw [if_neg old, if_neg old]
      exact framed.same id other here
  bound id call := by
    simp only [Array.getElem?_push, framed.size]
    obtain ⟨rfl, isEntry⟩ | ⟨old, call⟩ := kind_concat call
    · simpa using bound isEntry.symm
    · rw [if_neg old]
      exact framed.bound id call

theorem Placed.grown (placed : Placed world side scope) (grown : world <+: later) :
    Placed later side scope := by
  have kept : ∀ {frame : FrameId} {kind}, world[frame]? = some kind →
      later[frame]? = some kind := by
    intro frame kind here
    obtain ⟨more, rfl⟩ := grown
    rw [List.getElem?_append_left (List.getElem?_eq_some_iff.mp here).1, here]
  induction placed with
  | outside frames => exact .outside fun frame inScope => kept (frames frame inScope)
  | entry call _ ih => exact .entry (kept call) ih
  | inside inner _ ih => exact .inside (kept inner) ih

/-- The frame that a function starts with is of the kind of its place. -/
theorem Placed.push {side inner : Side} (placed : Placed world side scope) {params : List String}
    {bindings bindings' : Bindings} {frames frames' : Array Bindings}
    (framed : change.Framed world frames frames') (opens : change.Opens side params inner)
    (bound : ∀ param ∈ params, (bindings.get? param).isSome = true)
    (entries : Table.Related (change.Names inner) (fun value value' => value' = value)
      bindings bindings') :
    ∃ later, world <+: later ∧ change.Framed later (frames.push bindings) (frames'.push bindings') ∧
      Placed later inner (frames.size :: scope) := by
  have new : ∀ kind, (world ++ [kind])[frames.size]? = some kind := by
    intro kind
    rw [framed.size, List.getElem?_concat_length]
  have grown : ∀ kind, Placed (world ++ [kind]) side scope :=
    fun kind => placed.grown (List.prefix_append world [kind])
  cases side with
  | outside =>
    cases inner with
    | outside =>
      refine ⟨world ++ [.outside], List.prefix_append _ _,
        framed.push .outside entries (by simp), ?_⟩
      cases grown .outside with
      | outside frames => exact .outside (List.forall_mem_cons.mpr ⟨new .outside, frames⟩)
    | inside =>
      exact ⟨world ++ [.entry], List.prefix_append _ _,
        framed.push .entry entries fun _ => bound _ opens, .entry (new .entry) (grown .entry)⟩
  | inside =>
    cases inner with
    | outside => exact opens.elim
    | inside =>
      exact ⟨world ++ [.inside], List.prefix_append _ _, framed.push .inside entries (by simp),
        .inside (new .inside) (grown .inside)⟩

end Frames

end Renaming

theorem Expr.span_rename (change : Renaming) (value : Expr) :
    (value.rename change).span = value.span := by
  cases value with
  | conditional condition thenBranch elseBranch => cases elseBranch <;> simp only [rename, span]
  | _ => simp only [rename, span]

theorem Expr.isFunction_rename (change : Renaming) (value : Expr) :
    (value.rename change).isFunction = value.isFunction := by
  cases value with
  | conditional condition thenBranch elseBranch =>
    cases elseBranch <;> simp only [rename, isFunction]
  | _ => simp only [rename, isFunction]

theorem Expr.span_renameIn (change : Renaming) (value : Expr) :
    (value.renameIn change).span = value.span := by
  cases value with
  | conditional condition thenBranch elseBranch => cases elseBranch <;> simp only [renameIn, span]
  | function =>
    rw [renameIn]
    split <;> rfl
  | _ => simp only [renameIn, span]

theorem Expr.isFunction_renameIn (change : Renaming) (value : Expr) :
    (value.renameIn change).isFunction = value.isFunction := by
  cases value with
  | conditional condition thenBranch elseBranch =>
    cases elseBranch <;> simp only [renameIn, isFunction]
  | function =>
    rw [renameIn]
    split <;> rfl
  | _ => simp only [renameIn, isFunction]

namespace Renaming

variable {change : Renaming}

theorem names_map {params : List String} (fresh : change.new ∉ params) :
    List.Forall₂ (change.Names .inside) params (params.map change.apply) := by
  rw [List.forall₂_map_right_iff, List.forall₂_same]
  intro name member
  refine ⟨?_, rfl⟩
  rintro rfl
  exact fresh member

/-- Functions inside keep no name that is renamed. -/
theorem literal_inside {params : List String} {body : Block} (fresh : change.new ∉ params)
    (within : body.nodes ⊆ change.body.nodes) :
    change.link.Literal .inside (params, body)
      (params.map change.apply, body.rename change) :=
  ⟨.inside, trivial, names_map fresh, within, rfl⟩

/-- A function outside is the one with the parameter, or its names stay. -/
theorem function_outside (change : Renaming) (params : List String) (body : Block) (span : Span) :
    ∃ params' body',
      (Expr.function params body span).renameIn change = .function params' body' span ∧
      change.link.Literal .outside (params, body) (params', body') := by
  rw [Expr.renameIn]
  split
  next same =>
    obtain ⟨rfl, rfl, _⟩ := Expr.function.inj same
    exact ⟨_, _, rfl, .inside, change.parameter, names_map change.fresh.1, fun _ => id, rfl⟩
  next => exact ⟨_, _, rfl, .outside, trivial, List.forall₂_same.mpr fun _ _ => rfl, rfl⟩

theorem expr_outside (value : Expr) :
    change.link.Matches .outside (.expr value) (.expr (value.renameIn change)) := by
  cases value with
  | number | string | boolean | null =>
    rw [Expr.renameIn]
    constructor
    rfl
  | identifier =>
    rw [Expr.renameIn]
    exact .identifier rfl rfl
  | function params body span =>
    obtain ⟨params', body', same, literal⟩ := function_outside change params body span
    rw [same]
    exact .literal rfl rfl literal rfl
  | trailingBlock body =>
    rw [Expr.renameIn]
    exact .literal rfl rfl ⟨.outside, trivial, .nil, rfl⟩ rfl
  | call =>
    rw [Expr.renameIn]
    exact .call rfl rfl rfl
  | methodCall =>
    rw [Expr.renameIn]
    exact .methodCall rfl rfl rfl
  | block =>
    rw [Expr.renameIn]
    exact .block rfl rfl
  | conditional condition thenBranch elseBranch =>
    cases elseBranch with
    | none =>
      rw [Expr.renameIn]
      exact .conditional rfl rfl rfl
    | some =>
      rw [Expr.renameIn]
      exact .conditionalElse rfl rfl rfl rfl
  | operation =>
    rw [Expr.renameIn]
    exact .operation rfl rfl rfl

theorem stmt_outside (stmt : Stmt) :
    change.link.Matches .outside (.stmt stmt) (.stmt (stmt.renameIn change)) := by
  cases stmt with
  | declare name value =>
    rw [Stmt.renameIn]
    cases literal : value.isFunction with
    | false =>
      exact .declare rfl rfl literal (by rw [Expr.isFunction_renameIn, literal]) rfl
    | true =>
      cases value with
      | function params body span =>
        obtain ⟨params', body', same, literal⟩ :=
          function_outside change params body span
        rw [same]
        exact .declareFunction rfl literal rfl
      | _ => contradiction
  | assign =>
    rw [Stmt.renameIn]
    exact .assign rfl rfl rfl
  | forEach binding iterable body =>
    rw [Stmt.renameIn]
    exact .forEach rfl rfl (iterable.span_renameIn change).symm rfl rfl
  | expr =>
    rw [Stmt.renameIn]
    exact .expression rfl rfl

theorem part_outside (part : Part) :
    change.link.Matches .outside part (part.renameIn change) := by
  cases part with
  | expr value => exact expr_outside value
  | stmt stmt => exact stmt_outside stmt
  | args values =>
    cases values with
    | nil =>
      rw [Part.renameIn, Expr.renamesIn]
      exact .noArgs
    | cons =>
      rw [Part.renameIn, Expr.renamesIn]
      exact .args rfl rfl
  | stmts stmts =>
    cases stmts with
    | nil =>
      rw [Part.renameIn, Stmt.renamesIn]
      exact .noStmts
    | cons =>
      rw [Part.renameIn, Stmt.renamesIn]
      exact .stmts rfl rfl
  | block body =>
    obtain ⟨stmts, _, _⟩ := body
    rw [Part.renameIn, Block.renameIn]
    exact .body rfl

/-- A name in code inside is never the new one. -/
theorem names_inside {node : Node} (within : node ∈ change.body.nodes) (uses : name ∈ node.names) :
    change.Names .inside name (change.apply name) := by
  refine ⟨?_, rfl⟩
  rintro rfl
  exact change.fresh.2 node within uses

theorem expr_inside {value : Expr} (within : .expr value :: value.inner ⊆ change.body.nodes) :
    change.link.Matches .inside (.expr value) (.expr (value.rename change)) := by
  have here : .expr value ∈ change.body.nodes := within List.mem_cons_self
  cases value with
  | number | string | boolean | null =>
    rw [Expr.rename]
    constructor
    rfl
  | identifier =>
    rw [Expr.rename]
    exact .identifier (names_inside here List.mem_cons_self) rfl
  | function params body =>
    rw [Expr.inner, List.cons_subset] at within
    rw [Expr.rename]
    exact .literal rfl rfl (literal_inside (change.fresh.2 _ here) within.2) rfl
  | trailingBlock body =>
    rw [Expr.inner, List.cons_subset] at within
    rw [Expr.rename]
    exact .literal rfl rfl ⟨.inside, trivial, .nil, within.2, rfl⟩ rfl
  | call callee args =>
    simp only [Expr.inner, List.cons_subset, List.append_subset] at within
    obtain ⟨_, callee, inner, args⟩ := within
    rw [Expr.rename]
    exact .call ⟨List.cons_subset.mpr ⟨callee, inner⟩, rfl⟩ ⟨args, rfl⟩ rfl
  | methodCall receiver method args =>
    simp only [Expr.inner, List.cons_subset, List.append_subset] at within
    obtain ⟨_, receiver, inner, args⟩ := within
    rw [Expr.rename]
    exact .methodCall ⟨List.cons_subset.mpr ⟨receiver, inner⟩, rfl⟩ ⟨args, rfl⟩ rfl
  | block body =>
    rw [Expr.inner, List.cons_subset] at within
    rw [Expr.rename]
    exact .block ⟨within.2, rfl⟩ rfl
  | conditional condition thenBranch elseBranch =>
    cases elseBranch with
    | none =>
      simp only [Expr.inner, List.cons_subset, List.append_subset] at within
      obtain ⟨_, condition, inner, branch⟩ := within
      rw [Expr.rename]
      exact .conditional ⟨List.cons_subset.mpr ⟨condition, inner⟩, rfl⟩ ⟨branch, rfl⟩ rfl
    | some elseBranch =>
      simp only [Expr.inner, List.cons_subset, List.append_subset] at within
      obtain ⟨_, condition, inner, branch, other⟩ := within
      rw [Expr.rename]
      exact .conditionalElse ⟨List.cons_subset.mpr ⟨condition, inner⟩, rfl⟩ ⟨branch, rfl⟩
        ⟨other, rfl⟩ rfl
  | operation operator left right =>
    simp only [Expr.inner, List.cons_subset, List.append_subset] at within
    obtain ⟨_, left, innerLeft, right, innerRight⟩ := within
    rw [Expr.rename]
    exact .operation ⟨List.cons_subset.mpr ⟨left, innerLeft⟩, rfl⟩
      ⟨List.cons_subset.mpr ⟨right, innerRight⟩, rfl⟩ rfl

theorem stmt_inside {stmt : Stmt} (within : .stmt stmt :: stmt.inner ⊆ change.body.nodes) :
    change.link.Matches .inside (.stmt stmt) (.stmt (stmt.rename change)) := by
  have here : .stmt stmt ∈ change.body.nodes := within List.mem_cons_self
  cases stmt with
  | declare name value =>
    have names := names_inside here List.mem_cons_self
    rw [Stmt.inner] at within
    rw [Stmt.rename]
    cases literal : value.isFunction with
    | false =>
      exact .declare names ⟨(List.cons_subset.mp within).2, rfl⟩ literal
        (by rw [Expr.isFunction_rename, literal]) rfl
    | true =>
      cases value with
      | function params body =>
        -- the closure gets the name, which is not the old one
        have other : name ≠ change.old := by
          rintro rfl
          exact change.unnamed _ _ _ _ here
        have same := names.outside other
        rw [same] at names ⊢
        simp only [Expr.inner, List.cons_subset] at within
        obtain ⟨_, function, body⟩ := within
        rw [Expr.rename]
        exact .declareFunction names (literal_inside (change.fresh.2 _ function) body) rfl
      | _ => contradiction
  | assign name value =>
    rw [Stmt.inner] at within
    rw [Stmt.rename]
    exact .assign (names_inside here List.mem_cons_self) ⟨(List.cons_subset.mp within).2, rfl⟩ rfl
  | forEach binding iterable body =>
    simp only [Stmt.inner, List.cons_subset, List.append_subset] at within
    obtain ⟨_, value, inner, body⟩ := within
    rw [Stmt.rename]
    exact .forEach (names_inside here List.mem_cons_self)
      ⟨List.cons_subset.mpr ⟨value, inner⟩, rfl⟩ (iterable.span_rename change).symm ⟨body, rfl⟩ rfl
  | expr value =>
    rw [Stmt.inner] at within
    rw [Stmt.rename]
    exact .expression ⟨(List.cons_subset.mp within).2, rfl⟩ rfl

theorem part_inside {part : Part} (within : part.nodes ⊆ change.body.nodes) :
    change.link.Matches .inside part (part.rename change) := by
  cases part with
  | expr value => exact expr_inside within
  | stmt stmt => exact stmt_inside within
  | args values =>
    cases values with
    | nil =>
      rw [Part.rename, Expr.renames]
      exact .noArgs
    | cons first more =>
      simp only [Part.nodes, Expr.nodes, List.cons_subset, List.append_subset] at within
      obtain ⟨first, inner, more⟩ := within
      rw [Part.rename, Expr.renames]
      exact .args ⟨List.cons_subset.mpr ⟨first, inner⟩, rfl⟩ ⟨more, rfl⟩
  | stmts stmts =>
    cases stmts with
    | nil =>
      rw [Part.rename, Stmt.renames]
      exact .noStmts
    | cons first more =>
      simp only [Part.nodes, Stmt.nodes, List.cons_subset, List.append_subset] at within
      obtain ⟨first, inner, more⟩ := within
      rw [Part.rename, Stmt.renames]
      exact .stmts ⟨List.cons_subset.mpr ⟨first, inner⟩, rfl⟩ ⟨more, rfl⟩
  | block body =>
    obtain ⟨stmts, _, _⟩ := body
    rw [Part.rename, Block.rename]
    exact .body ⟨within, rfl⟩

theorem link_lawful (change : Renaming) : change.link.Lawful where
  pace := Nat.le_refl 1
  receiver
    | .outside => rfl
    | .inside => ⟨change.new_ne_self.symm, change.apply_self.symm⟩
  unique := names_unique
  stays
    | .outside => trivial
    | .inside => trivial
  matched {mode _ _} same := by
    cases mode with
    | outside =>
      obtain rfl := same
      exact part_outside _
    | inside =>
      obtain ⟨within, rfl⟩ := same
      exact part_inside within
  grown_refl := List.prefix_refl
  grown_trans := List.IsPrefix.trans
  placed_grown grown placed := placed.grown grown
  size framed := framed.size'
  resolve framed placed names := framed.resolve? placed names
  unbound framed placed names none := framed.unbound placed names none
  bind value framed placed names target := by
    obtain ⟨kind, here, names⟩ := framed.binds placed names target
    exact framed.bindIn here names value
  push framed placed opens bound entries := placed.push framed opens bound entries

theorem link_fresh (change : Renaming) (silent : Bool) :
    change.link.Related [.outside] (.fresh silent) (.fresh silent) where
  frames := by
    refine ⟨rfl, rfl, fun id kind here => ?_, fun id call => ?_⟩
    · obtain rfl : kind = .outside := by
        simpa using List.mem_of_getElem? here
      exact List.forall₂_same.mpr fun _ _ => ⟨rfl, rfl⟩
    · have outside := List.mem_of_getElem? call
      simp at outside
  closureCount := rfl
  closures id _ _ stored := by simp [Machine.fresh, Machine.empty] at stored
  iterators := rfl
  buffers := rfl
  methods := rfl
  console := rfl
  callDepth := rfl

end Renaming

/-- Closures in two runs: one from outside of the function may have the function in its body,
and the others are the function itself or from inside of it. -/
inductive Closure.Renamed (change : Renaming) : Closure → Closure → Prop
  | outside (closure : Closure) :
      Renamed change closure { closure with body := closure.body.renameIn change }
  | inside (closure : Closure) (within : closure.body.nodes ⊆ change.body.nodes) :
      Renamed change closure { closure with
        params := closure.params.map change.apply
        body := closure.body.rename change }

/-- Machines that differ in nothing but the name of the parameter. -/
structure Machine.Renamed (change : Renaming) (machine machine' : Machine) : Prop where
  bindings : ∀ frame, machine'.bindings frame = machine.bindings frame ∨
    machine'.bindings frame =
      (machine.bindings frame).map fun (name, value) => (change.apply name, value)
  closures : ∀ id : ClosureId,
    Option.Rel (Closure.Renamed change) machine.closures[id]? machine'.closures[id]?
  iterators : machine'.iterators = machine.iterators
  buffers : machine'.buffers = machine.buffers
  methods : machine'.methods = machine.methods
  console : machine'.console = machine.console

/-- The same result or the same fault at the same place, and machines that differ in nothing
but the name of the parameter. -/
inductive Outcome.Renamed (change : Renaming) : Outcome Value → Outcome Value → Prop
  | value (same : machine.Renamed change machine') :
      Renamed change (.value result machine) (.value result machine')
  | fault (same : machine.Renamed change machine') :
      Renamed change (.fault raised machine) (.fault raised machine')

namespace Renaming

variable {change : Renaming} {world : List FrameKind} {machine machine' : Machine}

theorem names_outside (change : Renaming) {params params' : List String}
    (names : List.Forall₂ (change.Names .outside) params params') : params' = params := by
  induction names with
  | nil => rfl
  | cons first _ ih => rw [ih, first]

theorem names_renamed {params params' : List String}
    (names : List.Forall₂ (change.Names .inside) params params') :
    params' = params.map change.apply := by
  induction names with
  | nil => rfl
  | cons first _ ih => rw [ih, first.2, List.map_cons]

theorem closure_renamed {closure closure' : Closure}
    (same : change.link.Closures world closure closure') : closure.Renamed change closure' := by
  obtain ⟨_, _, side, _, names, code⟩ := same.literal
  obtain ⟨params', body', scope', name'⟩ := closure'
  obtain rfl : scope' = closure.scope := same.scope
  obtain rfl : name' = closure.name := same.name
  cases side with
  | outside =>
    obtain rfl : params' = closure.params := names_outside change names
    obtain rfl : body' = closure.body.renameIn change := Part.block.inj code
    exact .outside closure
  | inside =>
    obtain rfl : params' = closure.params.map change.apply := names_renamed names
    obtain rfl : body' = closure.body.rename change := Part.block.inj code.2
    exact .inside closure code.1

/-- Each frame has the names of its side. -/
theorem Framed.bindings_eq (framed : change.Framed world machine.frames machine'.frames)
    (frame : FrameId) : machine'.bindings frame = machine.bindings frame ∨
      machine'.bindings frame =
        (machine.bindings frame).map fun (name, value) => (change.apply name, value) := by
  cases here : world[frame]? with
  | none =>
    have beyond : machine.frames.size ≤ frame := by
      rw [framed.size]
      exact List.getElem?_eq_none_iff.mp here
    left
    rw [Machine.bindings, Machine.bindings, Array.getElem?_eq_none beyond,
      Array.getElem?_eq_none (framed.size' ▸ beyond)]
  | some kind =>
    have entries := framed.same frame kind here
    change List.Forall₂ _ (machine.bindings frame) (machine'.bindings frame) at entries
    generalize machine.bindings frame = bindings, machine'.bindings frame = bindings' at entries ⊢
    cases side : kind.side with
    | outside =>
      left
      rw [side] at entries
      induction entries with
      | nil => rfl
      | cons first _ ih => rw [ih, Prod.ext first.1 first.2]
    | inside =>
      right
      rw [side] at entries
      induction entries with
      | nil => rfl
      | cons first _ ih =>
        rw [ih, List.map_cons]
        exact congrArg (· :: _) (Prod.ext first.1.2 first.2)

theorem machine_renamed (related : change.link.Related world machine machine') :
    machine.Renamed change machine' where
  bindings := related.frames.bindings_eq
  closures id := by
    have same := related.closure id
    generalize machine.closures[id]? = first, machine'.closures[id]? = second at same ⊢
    cases same with
    | none => exact .none
    | some same => exact .some (closure_renamed same)
  iterators := related.iterators
  buffers := related.buffers
  methods := related.methods
  console := related.console

theorem outcome_renamed {outcome outcome' : Outcome Value} (ended : outcome ≠ .outOfFuel)
    (ends : (change.link.coupling limits).Ends world .settled
      (change.link.coupling limits).Values outcome outcome') :
    outcome' ≠ .outOfFuel ∧ outcome.Renamed change outcome' := by
  cases ends with
  | value _ related same =>
    obtain rfl := Correspondence.usable_iff.mp same
    exact ⟨by simp, .value (machine_renamed related)⟩
  | fault _ related same =>
    obtain rfl := same.eq Eq.symm
    exact ⟨by simp, .fault (machine_renamed related)⟩
  | cut cut => contradiction
  | outOfFuel => contradiction

end Renaming

/-- A program whose run ends does so too when a parameter of one of its functions gets another
name throughout the function: it gives the same result or the same fault at the same place,
and prints the same. The new name may be used anywhere else. -/
theorem Program.renameIn_ends (change : Renaming) {program : Program} {limits : Limits}
    {silent : Bool} {outcome : Outcome Value}
    (ends : program.Ends limits Machine.globalScope (.fresh silent) outcome) :
    ∃ outcome', (program.renameIn change).Ends limits Machine.globalScope (.fresh silent) outcome' ∧
      outcome.Renamed change outcome' := by
  obtain ⟨ended, fuel, ran⟩ := ends
  have placed : change.link.placed [.outside] .outside Machine.globalScope :=
    .outside (by simp [Machine.globalScope])
  have code : change.link.code .outside (.stmts program.statements)
    (.stmts (program.renameIn change).statements) := rfl
  have tracked := Correspondence.eval_ends change.link_lawful limits
    (Nat.le_of_eq (Nat.one_mul fuel)) placed code (change.link_fresh silent)
  rw [ran] at tracked
  obtain ⟨ended', same⟩ := Renaming.outcome_renamed ended tracked
  exact ⟨_, ⟨ended', fuel, rfl⟩, same⟩

/-- The parameter of a function that gives it back may have another name. -/
theorem Program.renameIn_ends_parameter :
    let body (name : String) : Block :=
      .mk [.expr (.identifier name ⟨15, 16⟩) ⟨15, 16⟩] true ⟨15, 16⟩
    let program (name : String) : Program := ⟨[
      .declare "f" (.function [name] (body name) ⟨8, 16⟩) ⟨0, 16⟩,
      .expr (.call (.identifier "f" ⟨17, 18⟩) [.boolean true ⟨19, 23⟩] ⟨17, 24⟩) ⟨17, 24⟩]⟩
    Program.parse "let f = (x) => x\nf(true)" = .ok (program "x") ∧
      Program.parse "let f = (y) => y\nf(true)" = .ok (program "y") ∧
      ∃ change : Renaming, change.function = .function ["x"] (body "x") ⟨8, 16⟩ ∧
        change.old = "x" ∧ change.new = "y" ∧ (program "x").renameIn change = program "y" ∧
        ∃ machine, (program "y").Ends {} Machine.globalScope (.fresh true)
          (.value (.boolean true) machine) := by
  intro body program
  let change : Renaming :=
    { params := ["x"], body := body "x", span := ⟨8, 16⟩, old := "x", new := "y"
      parameter := by simp
      old_ne_self := by decide
      new_ne_self := by decide
      fresh := by simp [body, Block.nodes, Stmt.nodes, Stmt.inner, Expr.inner, Node.names]
      unnamed := by simp [body, Block.nodes, Stmt.nodes, Stmt.inner, Expr.inner] }
  have renamed : (program "x").renameIn change = program "y" := by
    simp [program, Program.renameIn, Stmt.renamesIn, Stmt.renameIn, Expr.renameIn, Expr.renamesIn,
      Renaming.function, change, body, Block.rename, Stmt.renames, Stmt.rename, Expr.rename,
      Renaming.apply]
  have ends : (program "x").Ends {} Machine.globalScope (.fresh true) (.value (.boolean true)
      { Machine.fresh true with
        frames := #[Machine.globalBindings ++ [("f", .closure 0)], [("x", .boolean true)]]
        closures := #[⟨["x"], body "x", [0], some "f"⟩] }) :=
    ⟨by simp, 20, by cbv⟩
  obtain ⟨_, ends', same⟩ := Program.renameIn_ends change ends
  rw [renamed] at ends'
  cases same with
  | value => exact ⟨by cbv, by cbv, change, rfl, rfl, rfl, renamed, _, ends'⟩

end PixelScript
