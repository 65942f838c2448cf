import PixelScript.Proofs.Evaluation.Fuel
import PixelScript.Proofs.Evaluation.Seclusion

/-! Loops as folds. A loop takes its values one by one from an iterator, with arbitrary code
in between. If that code cannot get at the iterator, then the loop is a fold over the values
that the iterator had to give when the loop started. -/
namespace PixelScript
open Evaluation

variable {α β : Type}

/-- The values that a range gives, and then no more. -/
inductive Range.Yields : Range → List Float → Prop
  | done {range later : Range} (advanced : range.advance = (none, later)) : Yields range []
  | next {range later : Range} {value : Float} {values : List Float}
      (advanced : range.advance = (some value, later)) (more : later.Yields values) :
      Yields range (value :: values)

namespace Machine

variable {machine : Machine} {id : IteratorId} {range later : Range}

theorem withRange_of_getElem? (stored : machine.iterators[id]? = some range) :
    machine.withRange id range = machine := by
  obtain ⟨inside, rfl⟩ := Array.getElem?_eq_some_iff.mp stored
  simp [withRange, Array.setIfInBounds, inside]

theorem advanceIterator_withRange (stored : id < machine.iterators.size) {next : Option Float}
    (advanced : range.advance = (next, later)) :
    (machine.withRange id range).advanceIterator id = (next, machine.withRange id later) := by
  simp [advanceIterator, withRange, stored, advanced]

end Machine

theorem Eval.within_eq_outOfFuel {action : Eval α} {machine : Machine} {span : Span} :
    Eval.within span action machine = .outOfFuel ↔ action machine = .outOfFuel := by
  simp only [Eval.within]
  cases action machine <;> simp

theorem Eval.within_withRange {action action' : Eval α} {machine machine' : Machine}
    {id : IteratorId} {later : Range} (span : Span)
    (same : action machine = (action' machine').withRange id later) :
    Eval.within span action machine = (Eval.within span action' machine').withRange id later := by
  simp only [Eval.within, same]
  cases action' machine' <;> rfl

namespace Evaluation

variable {limits : Limits} {fuel fuel' : Nat} {scope : Scope} {binding : String} {body : Block}
  {id : IteratorId} {machine : Machine}

/-- One round of a loop: the name gets its value, and the body is evaluated. -/
def oneRound (limits : Limits) (fuel : Nat) (scope : Scope) (binding : String) (body : Block)
    (value : Float) : Eval Value := do
  Eval.modify (·.define scope binding (.number value))
  evalBlock limits fuel scope body

/-- Rounds over given values; as in a loop, each takes one unit of fuel. -/
def roundsOver (limits : Limits) (scope : Scope) (binding : String) (body : Block) :
    Nat → List Float → Value → Eval Value
  | 0, _, _ => Eval.outOfFuel
  | _ + 1, [], last => pure last
  | fuel + 1, value :: values, _ => do
    let last ← oneRound limits fuel scope binding body value
    roundsOver limits scope binding body fuel values last

/-- Rounds in a new scope, where the name is null at first. -/
def inLoopScope (scope : Scope) (binding : String) (rounds : Scope → Eval Value) : Eval Value := do
  let inner ← Eval.modifyGet (·.openScope scope [(binding, .null)])
  rounds inner

/-- A fold over values: in one new scope, the name is bound to each value in turn and the body
evaluated. The value of the last round is the result, or null without any. -/
def foldOver (limits : Limits) (fuel : Nat) (scope : Scope) (binding : String) (body : Block)
    (values : List Float) : Eval Value :=
  inLoopScope scope binding fun inner =>
    values.foldlM (fun _ value => oneRound limits fuel inner binding body value) .null

theorem oneRound_extends (more : fuel ≤ fuel') (value : Float) :
    (oneRound limits fuel scope binding body value).Extends
      (oneRound limits fuel' scope binding body value) :=
  .bind (.refl _) fun _ => Job.run_extends more (.block scope body)

theorem roundsOver_extends (more : fuel ≤ fuel') (values : List Float) (last : Value) :
    (roundsOver limits scope binding body fuel values last).Extends
      (values.foldlM (fun _ value => oneRound limits fuel' scope binding body value) last) := by
  induction values generalizing fuel last with
  | nil =>
    cases fuel with
    | zero => exact .outOfFuel _
    | succ => exact .refl _
  | cons value values ih =>
    cases fuel with
    | zero => exact .outOfFuel _
    | succ fuel =>
      rw [roundsOver, List.foldlM_cons]
      exact .bind (oneRound_extends (by omega) value) fun last => ih (by omega) last

theorem foldlM_extends {values : List Float} (enough : fuel + values.length < fuel')
    (last : Value) :
    (values.foldlM (fun _ value => oneRound limits fuel scope binding body value) last).Extends
      (roundsOver limits scope binding body fuel' values last) := by
  induction values generalizing fuel' last with
  | nil =>
    obtain ⟨fuel', rfl⟩ := Nat.exists_eq_add_one_of_ne_zero (Nat.ne_zero_of_lt enough)
    exact .refl _
  | cons value values ih =>
    obtain ⟨fuel', rfl⟩ := Nat.exists_eq_add_one_of_ne_zero (Nat.ne_zero_of_lt enough)
    rw [List.length_cons] at enough
    rw [roundsOver, List.foldlM_cons]
    exact .bind (oneRound_extends (by omega) value) fun last => ih (by omega) last

theorem forLoop_done {between : Machine}
    (advanced : machine.advanceIterator id = (none, between)) (last : Value) :
    forLoop limits (fuel + 1) scope binding id body last machine = .value last between := by
  rw [forLoop]
  simp only [Bind.bind, Eval.bind, Eval.modifyGet, advanced]
  rfl

theorem forLoop_next {between : Machine} {next : Float}
    (advanced : machine.advanceIterator id = (some next, between)) (last : Value) :
    forLoop limits (fuel + 1) scope binding id body last machine =
      (oneRound limits fuel scope binding body next >>=
        forLoop limits fuel scope binding id body) between := by
  rw [forLoop]
  simp only [Bind.bind, Eval.bind, Eval.modifyGet, advanced, oneRound, Eval.modify]

/-- A round does the same whatever range an iterator has that it cannot get at. -/
theorem oneRound_ends {outside : Outside} (limits : Limits) (fuel : Nat) (binding : String)
    (body : Block) (closed : outside.Closed machine)
    (contains : outside.toTerritory.Contains scope) (range : Range) (value : Float) :
    oneRound limits fuel scope binding body value (machine.withRange outside.iterator range) =
        (oneRound limits fuel scope binding body value machine).withRange outside.iterator range ∧
      ∀ result after, oneRound limits fuel scope binding body value machine = .value result after →
        outside.Closed after := by
  have lawful := Outside.secluding.lawful outside range limits
  have scopes : (outside.secluding range limits).scopes () () scope scope := ⟨rfl, contains⟩
  have defined : (outside.secluding range limits).Same () .settled
      (Eval.modify (·.define scope binding (.number value)))
      (Eval.modify (·.define scope binding (.number value))) :=
    .define lawful scopes trivial rfl (.plain rfl (by simp [Value.kind]))
  have tracks := defined.bind_same lawful.toWorlds fun _ _ _ =>
    Outside.secluding.block contains range limits fuel body
  exact Outside.secluding.ends (tracks machine _ ⟨rfl, closed⟩)

/-- The rounds of a loop over an iterator that the body cannot get at: the machine differs from
that of the rounds over the values in the range of the iterator only. -/
theorem forLoop_eq_roundsOver {outside : Outside} {range : Range} {values : List Float}
    (limits : Limits) (fuel : Nat) (binding : String) (body : Block)
    (yields : range.Yields values) (closed : outside.Closed machine)
    (contains : outside.toTerritory.Contains scope) (last : Value) :
    ∃ later, forLoop limits fuel scope binding outside.iterator body last
        (machine.withRange outside.iterator range) =
      (roundsOver limits scope binding body fuel values last machine).withRange
        outside.iterator later := by
  induction yields generalizing fuel machine last with
  | @done range later advanced =>
    cases fuel with
    | zero => exact ⟨range, by rw [forLoop, roundsOver]; rfl⟩
    | succ fuel =>
      exact ⟨later, forLoop_done (Machine.advanceIterator_withRange closed.stored advanced) last⟩
  | @next range later value values advanced more ih =>
    cases fuel with
    | zero => exact ⟨range, by rw [forLoop, roundsOver]; rfl⟩
    | succ fuel =>
      obtain ⟨same, kept⟩ := oneRound_ends limits fuel binding body closed contains later value
      rw [forLoop_next (Machine.advanceIterator_withRange closed.stored advanced) last, roundsOver]
      simp only [Bind.bind, Eval.bind, same]
      -- the round leaves the iterator alone, so the rest starts from `later`
      cases outcome : oneRound limits fuel scope binding body value machine with
      | value last between => exact ih fuel (kept last between outcome) last
      | fault raised between => exact ⟨later, rfl⟩
      | outOfFuel => exact ⟨later, rfl⟩

variable {iterable : Expr} {between : Machine} {span : Span} {range : Range} {values : List Float}

theorem inLoopScope_forLoop (limits : Limits) (fuel : Nat) (binding : String) (body : Block)
    (unheld : ¬ between.Holds scope (.iterator id))
    (stored : between.iterators[id]? = some range) (yields : range.Yields values) :
    ∃ later,
      inLoopScope scope binding (forLoop limits fuel · binding id body .null) between =
        (inLoopScope scope binding (roundsOver limits · binding body fuel values .null)
          between).withRange id later := by
  -- nothing leads to the iterator at the start, and the new scope adds nothing that does
  have closed := Outside.of_closed stored unheld
  have opened := closed.territory.openScope scope (Outside.has_null _ binding)
  have contains := closed.territory.contains_openScope (between.contains_reach scope)
    [(binding, .null)]
  have unchanged : (between.openScope scope [(binding, .null)]).2.withRange id range =
      (between.openScope scope [(binding, .null)]).2 := Machine.withRange_of_getElem? stored
  obtain ⟨later, same⟩ := forLoop_eq_roundsOver limits fuel binding body yields
    ⟨opened, closed.stored⟩ contains .null
  refine ⟨later, ?_⟩
  rw [show (Outside.of between scope id).iterator = id from rfl, unchanged] at same
  exact same

/-- A loop that ends is the fold, which takes no more fuel. -/
theorem forLoop_folds (unheld : ¬ between.Holds scope (.iterator id))
    (stored : between.iterators[id]? = some range) (yields : range.Yields values)
    (more : fuel ≤ fuel')
    (ended : inLoopScope scope binding (forLoop limits fuel · binding id body .null) between ≠
      .outOfFuel) :
    ∃ later, inLoopScope scope binding (forLoop limits fuel · binding id body .null) between =
      (foldOver limits fuel' scope binding body values between).withRange id later := by
  have longer : (inLoopScope scope binding
      (roundsOver limits · binding body fuel values .null)).Extends
      (foldOver limits fuel' scope binding body values) :=
    .bind (.refl _) fun _ => roundsOver_extends more values .null
  obtain ⟨later, same⟩ := inLoopScope_forLoop limits fuel binding body unheld stored yields
  rw [same] at ended ⊢
  refine ⟨later, ?_⟩
  rw [longer]
  intro short
  rw [short] at ended
  exact ended rfl

/-- A fold that ends is the loop, which takes one more unit of fuel for each value. -/
theorem foldOver_loops (unheld : ¬ between.Holds scope (.iterator id))
    (stored : between.iterators[id]? = some range) (yields : range.Yields values)
    (enough : fuel + values.length < fuel')
    (ended : foldOver limits fuel scope binding body values between ≠ .outOfFuel) :
    ∃ later, inLoopScope scope binding (forLoop limits fuel' · binding id body .null) between =
      (foldOver limits fuel scope binding body values between).withRange id later := by
  have longer : (foldOver limits fuel scope binding body values).Extends
      (inLoopScope scope binding (roundsOver limits · binding body fuel' values .null)) :=
    .bind (.refl _) fun _ => foldlM_extends enough .null
  obtain ⟨later, same⟩ := inLoopScope_forLoop limits fuel' binding body unheld stored yields
  exact ⟨later, by rw [same, longer between ended]⟩

theorem evalStmt_forEach
    (evaluated : evalExpr limits fuel scope iterable machine = .value (.iterator id) between) :
    evalStmt limits (fuel + 1) scope (.forEach binding iterable body span) machine =
      Eval.within span (inLoopScope scope binding (forLoop limits fuel · binding id body .null))
        between := by
  rw [evalStmt]
  simp only [Eval.within, Stmt.span, Bind.bind, Eval.bind, evaluated, inLoopScope]

/-- A loop that ends had enough fuel for its iterator. -/
theorem evalExpr_of_evalStmt_forEach
    (evaluated : evalExpr limits fuel scope iterable machine = .value (.iterator id) between)
    (ended : evalStmt limits (fuel' + 1) scope (.forEach binding iterable body span) machine ≠
      .outOfFuel) :
    evalExpr limits fuel' scope iterable machine = .value (.iterator id) between := by
  have enough : evalExpr limits fuel scope iterable machine ≠ .outOfFuel := by simp [evaluated]
  rw [← evaluated]
  refine Job.run_unique (.expression scope iterable) (fun short => ended ?_) enough
  have short : evalExpr limits fuel' scope iterable machine = .outOfFuel := short
  rw [evalStmt]
  simp only [Eval.within, Bind.bind, Eval.bind, short]

/-- A loop over an iterator that code in the scope cannot get at is a fold over the values
that the iterator has to give. Both end in the same way, on machines that differ in the range
of that iterator at most, whatever the body does: each ends if the other does. In a fold, as
in the loop, a plain body is evaluated in a new scope of its own in every round. -/
theorem evalStmt_forEach_folds
    (evaluated : evalExpr limits fuel scope iterable machine = .value (.iterator id) between)
    (unheld : ¬ between.Holds scope (.iterator id))
    (stored : between.iterators[id]? = some range) (yields : range.Yields values)
    (binding : String) (body : Block) (span : Span) :
    let loop := Stmt.forEach binding iterable body span
    let fold := fun fuel => Eval.within span (foldOver limits fuel scope binding body values)
    (∀ fuel, evalStmt limits fuel scope loop machine ≠ .outOfFuel →
      ∃ later, evalStmt limits fuel scope loop machine =
        (fold fuel between).withRange id later) ∧
    (∀ fuel, fold fuel between ≠ .outOfFuel →
      ∃ enough later, evalStmt limits enough scope loop machine =
        (fold fuel between).withRange id later) ∧
    (body.isFunctionBody = false → ∀ fuel inner, evalBlock limits (fuel + 1) inner body =
      Eval.modifyGet (·.openScope inner []) >>= fun child =>
        evalStatements limits fuel child body.statements .null) := by
  intro loop fold
  refine ⟨fun fuel' ended => ?_, fun fuel' ended => ?_, fun plain fuel inner => ?_⟩
  · obtain _ | fuel' := fuel'
    · exact absurd (by rw [evalStmt]; rfl) ended
    have evaluated := evalExpr_of_evalStmt_forEach evaluated ended
    rw [evalStmt_forEach evaluated] at ended ⊢
    rw [Ne, Eval.within_eq_outOfFuel] at ended
    obtain ⟨later, same⟩ := forLoop_folds unheld stored yields (Nat.le_succ fuel') ended
    exact ⟨later, Eval.within_withRange span same⟩
  · obtain ⟨enough, more, most⟩ : ∃ enough, fuel ≤ enough ∧ fuel' + values.length < enough :=
      ⟨fuel + (fuel' + values.length + 1), by omega, by omega⟩
    have longer : (evalExpr limits fuel scope iterable).Extends
        (evalExpr limits enough scope iterable) :=
      Job.run_extends more (.expression scope iterable)
    have evaluated : evalExpr limits enough scope iterable machine =
        .value (.iterator id) between := by
      rw [longer machine (by simp [evaluated]), evaluated]
    rw [Ne, Eval.within_eq_outOfFuel] at ended
    obtain ⟨later, same⟩ := foldOver_loops unheld stored yields most ended
    refine ⟨enough + 1, later, ?_⟩
    rw [evalStmt_forEach evaluated, Eval.within_withRange span same]
  · rw [evalBlock, plain]
    rfl

/-- A body may assign to the name: the next round binds it to the next value all the same. -/
theorem evalStmt_forEach_folds_assigned :
    let range : Range := ⟨0, 2, 1, false, false⟩
    let between := { Machine.fresh true with iterators := #[range] }
    let iterable : Expr :=
      .operation "rangeExclusive" (.number 0 ⟨9, 10⟩) (.number 2 ⟨12, 13⟩) ⟨9, 13⟩
    let sum : Expr := .operation "plus" (.identifier "i" ⟨20, 21⟩) (.number 5 ⟨24, 25⟩) ⟨20, 25⟩
    let body : Block := .mk [.assign "i" sum ⟨16, 25⟩] false ⟨14, 27⟩
    let loop := Stmt.forEach "i" iterable body ⟨0, 27⟩
    evalExpr {} 4 [0] iterable (.fresh true) = .value (.iterator 0) between ∧
      ¬ between.Holds [0] (.iterator 0) ∧ between.iterators[0]? = some range ∧
      range.Yields [0, 1] ∧ evalStmt {} 12 [0] loop (.fresh true) ≠ .outOfFuel ∧
      ∃ later, evalStmt {} 12 [0] loop (.fresh true) =
        (Eval.within ⟨0, 27⟩ (foldOver {} 12 [0] "i" body [0, 1]) between).withRange 0 later := by
  intro range between iterable sum body loop
  have evaluated : evalExpr {} 4 [0] iterable (.fresh true) = .value (.iterator 0) between := rfl
  have unheld : ¬ between.Holds [0] (.iterator 0) := by
    intro holds
    cases holds with
    | bound inScope found =>
      obtain rfl := List.mem_singleton.mp inScope
      have global : _ ∈ Machine.globalBindings := Table.mem_of_get? found
      simp [Machine.globalBindings] at global
    | method found =>
      have builtin : _ ∈ Machine.builtinMethods := Table.mem_of_get? found
      simp [Machine.builtinMethods] at builtin
    | captured _ stored => simp [between, Machine.fresh, Machine.empty] at stored
  have one : (0 : Float) + 1 = 1 := by decide +kernel
  have two : (1 : Float) + 1 = 2 := by decide +kernel
  have first : Range.advance ⟨0, 2, 1, false, false⟩ = (some 0, ⟨1, 2, 1, false, false⟩) := by
    rw [Range.advance, if_neg (by decide +kernel), one]
  have second : Range.advance ⟨1, 2, 1, false, false⟩ = (some 1, ⟨2, 2, 1, false, false⟩) := by
    rw [Range.advance, if_neg (by decide +kernel), two]
  have third : Range.advance ⟨2, 2, 1, false, false⟩ = (none, ⟨2, 2, 1, false, true⟩) := by
    rw [Range.advance, if_pos (by decide +kernel)]
  have yields : range.Yields [0, 1] := .next first (.next second (.done third))
  have ended : evalStmt {} 12 [0] loop (.fresh true) ≠ .outOfFuel := by
    have left : (evalStmt {} 12 [0] loop (.fresh true)).machine?.isSome = true := by
      decide +kernel
    intro short
    simp [short, Outcome.machine?] at left
  have stored : between.iterators[0]? = some range := rfl
  obtain ⟨folds, -⟩ := evalStmt_forEach_folds evaluated unheld stored yields "i" body ⟨0, 27⟩
  exact ⟨evaluated, unheld, stored, yields, ended, folds 12 ended⟩

end Evaluation
end PixelScript
