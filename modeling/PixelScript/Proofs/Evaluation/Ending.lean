import PixelScript.Proofs.Evaluation.Correspondence
import PixelScript.Proofs.Evaluation.Fuel
import PixelScript.Proofs.Syntax.Respan

/-! How runs end, however long they take, and how those of code that corresponds do. -/
namespace PixelScript

variable {α : Type}

/-- The machine with other bodies in its closures. -/
def Machine.mapBodies (change : Block → Block) (machine : Machine) : Machine :=
  { machine with
    closures := machine.closures.map fun closure => { closure with body := change closure.body } }

/-- What is seen of an outcome, given what is seen of faults and of the bodies of closures. -/
def Outcome.view (faults : Fault → Fault) (bodies : Block → Block) : Outcome α → Outcome α
  | .value result machine => .value result (machine.mapBodies bodies)
  | .fault raised machine => .fault (faults raised) (machine.mapBodies bodies)
  | .outOfFuel => .outOfFuel

theorem Machine.mapBodies_id (machine : Machine) : machine.mapBodies id = machine := by
  simp [mapBodies]

theorem Outcome.view_id (outcome : Outcome α) : outcome.view id id = outcome := by
  cases outcome <;> simp only [view, Machine.mapBodies_id, id_eq]

theorem Outcome.view_eq_outOfFuel {faults : Fault → Fault} {bodies : Block → Block}
    {outcome : Outcome α} : outcome.view faults bodies = .outOfFuel ↔ outcome = .outOfFuel := by
  cases outcome <;> simp [view]

/-- The end of a run, however long it takes. -/
def Program.Ends (limits : Limits) (scope : Scope) (machine : Machine) (program : Program)
    (outcome : Outcome Value) : Prop :=
  outcome ≠ .outOfFuel ∧ ∃ fuel, program.eval limits fuel scope machine = outcome

namespace Correspondence

/-- Programs that correspond, run from machines that do. -/
theorem eval_ends {link : Correspondence} (lawful : link.Lawful) (limits : Limits)
    {world : link.World} {mode : link.Mode} {program program' : Program}
    {machine machine' : Machine}
    (enough : link.pace * fuel ≤ fuel') (placed : link.placed world mode scope)
    (code : link.code mode (.stmts program.statements) (.stmts program'.statements))
    (related : link.Related world machine machine') :
    (link.coupling limits).Ends world .settled (link.coupling limits).Values
      (program.eval limits fuel scope machine) (program'.eval limits fuel' scope machine') := by
  have scopes : (link.coupling limits).scopes world mode scope scope := ⟨rfl, placed⟩
  exact Coupling.eval_tracks (coupling_lawful lawful limits) scopes code (fun _ _ _ _ => trivial)
    enough machine machine' related

/-- A correspondence that keeps all names: frames are the same in both runs. -/
def plain (pace : Nat) (spans : Span → Span → Prop) (code : Part → Part → Prop) :
    Correspondence where
  Mode := Unit
  World := Unit
  pace := pace
  spans := spans
  names _ name name' := name' = name
  code _ := code
  opens _ _ _ := True
  grown _ _ := True
  frames _ frames frames' := frames' = frames
  placed _ _ _ := True

variable {pace : Nat} {spans : Span → Span → Prop} {code : Part → Part → Prop}

theorem plain_names {params params' : List String}
    (names : List.Forall₂ ((plain pace spans code).names ()) params params') :
    params' = params := by
  induction names with
  | nil => rfl
  | cons same _ ih => rw [ih, same]

theorem plain_literal {params : List String} {body body' : Block}
    (same : code (.block body) (.block body')) :
    (plain pace spans code).Literal () (params, body) (params, body') :=
  ⟨(), trivial, List.forall₂_same.mpr fun _ _ => rfl, same⟩

theorem plain_lawful (positive : 1 ≤ pace)
    (matched : ∀ {part part'}, code part part' →
      (plain pace spans code).Matches () part part') : (plain pace spans code).Lawful where
  pace := positive
  receiver _ := rfl
  unique same same' := by rw [same, same']
  stays _ := trivial
  matched := matched
  grown_refl _ := trivial
  grown_trans _ _ := trivial
  placed_grown _ _ := trivial
  size same := congrArg Array.size same
  resolve same _ name := by rw [name, Machine.resolve?_of_frames same]
  unbound _ _ name _ := name
  bind _ same _ name _ := by
    simp only [plain] at same name
    simp only [plain, Machine.bindIn, same, name]
  push same _ _ _ entries := by
    refine ⟨(), trivial, ?_, trivial⟩
    simp only [plain] at same
    simp only [plain, same, entries.eq_of_eq id id]

section Flip

variable (slower : 2 ≤ pace) (symm : ∀ {span span'}, spans span span' → spans span' span)

theorem flip_literal {function function' : List String × Block}
    (same : (plain pace spans code).Literal () function function') :
    (plain pace spans (flip code)).Literal () function' function := by
  obtain ⟨_, _, names, body⟩ := same
  obtain ⟨params, _⟩ := function
  obtain ⟨params', _⟩ := function'
  obtain rfl : params' = params := plain_names names
  exact plain_literal body

include slower symm in
theorem flip_matches {mode : (plain pace spans code).Mode}
    (matched : (plain pace spans code).Matches mode part part') :
    (plain pace spans (flip code)).Matches () part' part := by
  cases matched with
  | number span => exact .number (symm span)
  | string span => exact .string (symm span)
  | boolean span => exact .boolean (symm span)
  | null span => exact .null (symm span)
  | identifier name span => exact .identifier name.symm (symm span)
  | literal first second same span => exact .literal second first (flip_literal same) (symm span)
  | block body span => exact .block body (symm span)
  | call callee args span => exact .call callee args (symm span)
  | methodCall receiver args span => exact .methodCall receiver args (symm span)
  | operation left right span => exact .operation left right (symm span)
  | operationMethod _ left right span => exact .methodOperation slower left right (symm span)
  | methodOperation _ left right span => exact .operationMethod slower left right (symm span)
  | conditional condition branch span => exact .conditional condition branch (symm span)
  | conditionalElse condition branch other span =>
    exact .conditionalElse condition branch other (symm span)
  | noArgs => exact .noArgs
  | args first more => exact .args first more
  | body stmts => exact .body stmts
  | noStmts => exact .noStmts
  | stmts first more => exact .stmts first more
  | declare name value plain plain' span =>
    exact .declare name.symm value plain' plain (symm span)
  | declareFunction name same span => exact .declareFunction name (flip_literal same) (symm span)
  | assign name value span => exact .assign name.symm value (symm span)
  | forEach name iterable at' body span =>
    exact .forEach name.symm iterable (symm at') body (symm span)
  | expression value span => exact .expression value (symm span)

include slower symm in
/-- The runs change places. -/
theorem Lawful.plain_flip (lawful : (plain pace spans code).Lawful) :
    (plain pace spans (flip code)).Lawful := by
  refine plain_lawful lawful.pace fun {part part'} same => ?_
  have code : (plain pace spans code).code () part' part := same
  exact flip_matches slower symm (lawful.matched code)

end Flip

/-- Closures keep their parameters, and their bodies correspond. -/
theorem Related.plain_body {machine machine' : Machine}
    (related : (plain pace spans code).Related () machine machine') {id : ClosureId}
    {closure closure' : Closure} (stored : machine.closures[id]? = some closure)
    (stored' : machine'.closures[id]? = some closure') :
    closure' = { closure with body := closure'.body } ∧
      code (.block closure.body) (.block closure'.body) := by
  have same := related.closures id closure closure' stored stored'
  obtain ⟨_, _, _, _, names, body⟩ := same.literal
  refine ⟨?_, body⟩
  obtain ⟨params, _, scope, name⟩ := closure
  obtain ⟨params', body', scope', name'⟩ := closure'
  obtain rfl : params' = params := plain_names names
  obtain rfl : scope' = scope := same.scope
  obtain rfl : name' = name := same.name
  rfl

/-- Where corresponding bodies look the same, so do the machines. -/
theorem Related.plain_eq {machine machine' : Machine} {view view' : Block → Block}
    (related : (plain pace spans code).Related () machine machine')
    (bodies : ∀ {body body'}, code (.block body) (.block body') → view' body' = view body) :
    machine'.mapBodies view' = machine.mapBodies view := by
  have closures : (machine'.mapBodies view').closures = (machine.mapBodies view).closures := by
    refine Array.ext_getElem? fun id => ?_
    simp only [Machine.mapBodies, Array.getElem?_map]
    have found := related.closure id
    cases stored : machine.closures[id]? with
    | none =>
      rw [stored] at found
      cases stored' : machine'.closures[id]? with
      | none => rfl
      | some => rw [stored'] at found; cases found
    | some closure =>
      rw [stored] at found
      cases stored' : machine'.closures[id]? with
      | none => rw [stored'] at found; cases found
      | some closure' =>
        obtain ⟨same, body⟩ := related.plain_body stored stored'
        rw [Option.map_some, Option.map_some, same, bodies body]
  obtain ⟨_, _, _, _, _, _, _⟩ := machine
  obtain ⟨_, _, _, _, _, _, _⟩ := machine'
  simp only [Machine.mapBodies, Machine.mk.injEq]
  exact ⟨related.frames, closures, related.iterators, related.buffers, related.methods,
    related.console, related.callDepth⟩

/-- Where corresponding bodies and faults look the same, so do the outcomes. -/
theorem ends_plain_eq {outcome outcome' : Outcome Value} {place : Fault → Fault}
    {view view' : Block → Block} (ended : outcome ≠ .outOfFuel)
    (ends : ((plain pace spans code).coupling limits).Ends () .settled
      ((plain pace spans code).coupling limits).Values outcome outcome')
    (faults : ∀ {fault fault'}, (plain pace spans code).SameFault fault fault' →
      place fault' = place fault)
    (bodies : ∀ {body body'}, code (.block body) (.block body') → view' body' = view body) :
    outcome'.view place view' = outcome.view place view := by
  cases ends with
  | value _ related same =>
    obtain rfl := usable_iff.mp same
    rw [Outcome.view, Outcome.view, related.plain_eq bodies]
  | fault _ related same => rw [Outcome.view, Outcome.view, related.plain_eq bodies, faults same]
  | cut cut => contradiction
  | outOfFuel => contradiction

/-- Programs that correspond end in the same way, as far as can be seen. -/
theorem plain_ends (lawful : (plain pace spans code).Lawful) {program program' : Program}
    {machine machine' : Machine} {outcome : Outcome Value} {place : Fault → Fault}
    {view view' : Block → Block}
    (same : code (.stmts program.statements) (.stmts program'.statements))
    (related : (plain pace spans code).Related () machine machine')
    (faults : ∀ {fault fault'}, (plain pace spans code).SameFault fault fault' →
      place fault' = place fault)
    (bodies : ∀ {body body'}, code (.block body) (.block body') → view' body' = view body)
    (ends : program.Ends limits scope machine outcome) :
    ∃ outcome', program'.Ends limits scope machine' outcome' ∧
      outcome'.view place view' = outcome.view place view := by
  obtain ⟨ended, fuel, rfl⟩ := ends
  have code : (plain pace spans code).code () (.stmts program.statements)
    (.stmts program'.statements) := same
  have seen := ends_plain_eq ended
    (eval_ends lawful limits (Nat.le_refl (pace * fuel)) trivial code related) faults bodies
  refine ⟨_, ⟨fun cut => ended ?_, _, rfl⟩, seen⟩
  rw [cut] at seen
  exact Outcome.view_eq_outOfFuel.mp seen.symm

theorem plain_fresh (silent : Bool) :
    (plain pace spans code).Related () (.fresh silent) (.fresh silent) where
  frames := rfl
  closureCount := rfl
  closures id _ _ stored := by simp [Machine.fresh, Machine.empty] at stored
  iterators := rfl
  buffers := rfl
  methods := rfl
  console := rfl
  callDepth := rfl

end Correspondence

def Part.mapSpan (change : Span → Span) : Part → Part
  | expr value => expr (value.mapSpan change)
  | args values => args (Expr.mapSpans change values)
  | block body => block (body.mapSpan change)
  | stmts statements => stmts (Stmt.mapSpans change statements)
  | stmt statement => stmt (statement.mapSpan change)

theorem Expr.isFunction_mapSpan (change : Span → Span) (value : Expr) :
    (value.mapSpan change).isFunction = value.isFunction := by
  cases value with
  | conditional condition thenBranch elseBranch =>
    cases elseBranch <;> simp only [mapSpan, isFunction]
  | _ => simp only [mapSpan, isFunction]

namespace Correspondence

variable {allowed : (Span → Span) → Prop}

/-- Code with other spans: each piece is moved as a whole, by one of the allowed changes. -/
def respan (allowed : (Span → Span) → Prop) : Correspondence :=
  plain 1 (fun span span' => ∃ change, allowed change ∧ span' = change span)
    fun part part' => ∃ change, allowed change ∧ part' = part.mapSpan change

theorem respan_expr {change : Span → Span} (change? : allowed change) (value : Expr) :
    (respan allowed).Matches () (.expr value) (.expr (value.mapSpan change)) := by
  have code : ∀ part : Part, (respan allowed).code () part (part.mapSpan change) :=
    fun _ => ⟨change, change?, rfl⟩
  have span : ∀ span, (respan allowed).spans span (change span) := fun _ => ⟨change, change?, rfl⟩
  cases value with
  | number | string | boolean | null =>
    rw [Expr.mapSpan]
    constructor
    exact span _
  | identifier name =>
    rw [Expr.mapSpan]
    exact .identifier rfl (span _)
  | function params body =>
    rw [Expr.mapSpan]
    exact .literal rfl rfl (plain_literal (code (.block body))) (span _)
  | trailingBlock body =>
    rw [Expr.mapSpan]
    exact .literal rfl rfl (plain_literal (code (.block body))) (span _)
  | call callee args =>
    rw [Expr.mapSpan]
    exact .call (code (.expr callee)) (code (.args args)) (span _)
  | methodCall receiver method args =>
    rw [Expr.mapSpan]
    exact .methodCall (code (.expr receiver)) (code (.args args)) (span _)
  | block body =>
    rw [Expr.mapSpan]
    exact .block (code (.block body)) (span _)
  | conditional condition thenBranch elseBranch =>
    cases elseBranch with
    | none =>
      rw [Expr.mapSpan]
      exact .conditional (code (.expr condition)) (code (.block thenBranch)) (span _)
    | some elseBranch =>
      rw [Expr.mapSpan]
      exact .conditionalElse (code (.expr condition)) (code (.block thenBranch))
        (code (.block elseBranch)) (span _)
  | operation operator left right =>
    rw [Expr.mapSpan]
    exact .operation (code (.expr left)) (code (.expr right)) (span _)

theorem respan_stmt {change : Span → Span} (change? : allowed change) (stmt : Stmt) :
    (respan allowed).Matches () (.stmt stmt) (.stmt (stmt.mapSpan change)) := by
  have code : ∀ part : Part, (respan allowed).code () part (part.mapSpan change) :=
    fun _ => ⟨change, change?, rfl⟩
  have span : ∀ span, (respan allowed).spans span (change span) := fun _ => ⟨change, change?, rfl⟩
  cases stmt with
  | declare name value =>
    rw [Stmt.mapSpan]
    cases literal : value.isFunction with
    | false =>
      exact .declare rfl (code (.expr value)) literal
        (by rw [Expr.isFunction_mapSpan, literal]) (span _)
    | true =>
      cases value with
      | function params body =>
        rw [Expr.mapSpan]
        exact .declareFunction rfl (plain_literal (code (.block body))) (span _)
      | _ => contradiction
  | assign name value =>
    rw [Stmt.mapSpan]
    exact .assign rfl (code (.expr value)) (span _)
  | forEach binding iterable body =>
    rw [Stmt.mapSpan]
    exact .forEach rfl (code (.expr iterable)) (by rw [Expr.span_mapSpan]; exact span _)
      (code (.block body)) (span _)
  | expr value =>
    rw [Stmt.mapSpan]
    exact .expression (code (.expr value)) (span _)

theorem respan_lawful (allowed : (Span → Span) → Prop) : (respan allowed).Lawful := by
  refine plain_lawful (Nat.le_refl 1) ?_
  rintro part _ ⟨change, change?, rfl⟩
  have code : ∀ part : Part, (respan allowed).code () part (part.mapSpan change) :=
    fun _ => ⟨change, change?, rfl⟩
  cases part with
  | expr value => exact respan_expr change? value
  | stmt stmt => exact respan_stmt change? stmt
  | args values =>
    cases values with
    | nil =>
      rw [Part.mapSpan, Expr.mapSpans]
      exact .noArgs
    | cons first more =>
      rw [Part.mapSpan, Expr.mapSpans]
      exact .args (code (.expr first)) (code (.args more))
  | stmts stmts =>
    cases stmts with
    | nil =>
      rw [Part.mapSpan, Stmt.mapSpans]
      exact .noStmts
    | cons first more =>
      rw [Part.mapSpan, Stmt.mapSpans]
      exact .stmts (code (.stmt first)) (code (.stmts more))
  | block body =>
    obtain ⟨stmts, _, _⟩ := body
    rw [Part.mapSpan, Block.mapSpan]
    exact .body (code (.stmts stmts))

/-- Every machine corresponds to itself. -/
theorem respan_refl (unchanged : allowed id) (machine : Machine) :
    (respan allowed).Related () machine machine where
  frames := rfl
  closureCount := rfl
  closures id closure closure' stored stored' := by
    obtain rfl := Option.some.inj (stored.symm.trans stored')
    exact ⟨rfl, rfl, (), trivial, plain_literal
      ⟨_, unchanged, by rw [Part.mapSpan, Block.mapSpan_id]⟩⟩
  iterators := rfl
  buffers := rfl
  methods := rfl
  console := rfl
  callDepth := rfl

end Correspondence

/-- A run ends in one way. -/
theorem Program.Ends.unique {program : Program} {machine : Machine}
    {outcome outcome' : Outcome Value}
    (ends : program.Ends limits scope machine outcome)
    (ends' : program.Ends limits scope machine outcome') : outcome' = outcome := by
  obtain ⟨ended, fuel, rfl⟩ := ends
  obtain ⟨ended', fuel', rfl⟩ := ends'
  obtain more | more := Nat.le_total fuel fuel'
  · exact Program.eval_of_le ended more
  · exact (Program.eval_of_le ended' more).symm

end PixelScript
