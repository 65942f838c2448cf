import Mathlib
import PixelScript.Evaluation.Interpreter

/-! Evaluation as plans. Each function of the interpreter, with one unit of fuel more, does
things of its own and asks for other evaluations in between. Written down as a plan, this
order can be reasoned about once for all of them, and the evaluations that are under way at
some moment of a run are those that one plan asks for while another is waiting. -/
namespace PixelScript
open Evaluation

/-- What is evaluated: a piece of syntax in a scope, the rounds of a loop, or a call. -/
inductive Job : Type → Type
  | expression (scope : Scope) (value : Expr) : Job Value
  | arguments (scope : Scope) (values : List Expr) : Job (List Value)
  | block (scope : Scope) (body : Block) : Job Value
  | statements (scope : Scope) (stmts : List Stmt) (last : Value) : Job Value
  | statement (scope : Scope) (stmt : Stmt) : Job Value
  | rounds (scope : Scope) (binding : String) (id : IteratorId) (body : Block) (last : Value) :
      Job Value
  | send (receiver : Value) (name : String) (args : List Value) : Job Value
  | call (callee : Value) (receiver : Option Value) (args : List Value) : Job Value
  | enter (id : ClosureId) (receiver : Option Value) (args : List Value) : Job Value
  | loop (condition body last : Value) : Job Value

/-- Steps of its own and evaluations that it asks for, one after the other. -/
inductive Plan (α : Type) : Type 1
  | done (result : α)
  | act {β : Type} (action : Eval β) (next : β → Plan α)
  | job {β : Type} (part : Job β) (next : β → Plan α)

variable {α β : Type}

/-- The machine that a run leaves behind, whether it ends with a value or with a fault. -/
def Outcome.machine? : Outcome α → Option Machine
  | .value _ machine | .fault _ machine => some machine
  | .outOfFuel => none

/-- Follows a plan, given how jobs are done. -/
def Plan.run (jobs : ∀ β, Job β → Eval β) : Plan α → Eval α
  | done result => pure result
  | act action next => do (next (← action)).run jobs
  | job part next => do (next (← jobs _ part)).run jobs

namespace Job

def run (limits : Limits) (fuel : Nat) : (α : Type) → Job α → Eval α
  | _, expression scope value => evalExpr limits fuel scope value
  | _, arguments scope values => evalArgs limits fuel scope values
  | _, block scope body => evalBlock limits fuel scope body
  | _, statements scope stmts last => evalStatements limits fuel scope stmts last
  | _, statement scope stmt => evalStmt limits fuel scope stmt
  | _, rounds scope binding id body last => forLoop limits fuel scope binding id body last
  | _, send receiver name args => callMethod limits fuel receiver name args
  | _, call callee receiver args => callValue limits fuel callee receiver args
  | _, enter id receiver args => callClosure limits fuel id receiver args
  | _, loop condition body last => whileLoop limits fuel condition body last

def planExpr (scope : Scope) : Expr → Plan Value
  | .number value _ => .done (.number value)
  | .string text _ => .done (.string text)
  | .boolean value _ => .done (.boolean value)
  | .null _ => .done .null
  | .identifier name _ => .act (Eval.read (·.lookup? scope name)) fun
    | some value => .done value
    | none => .act (Eval.fail (.undefinedVariable name)) .done
  | .function params body _ => .act (makeClosure scope params body none) .done
  | .trailingBlock body _ => .act (makeClosure scope [] body none) .done
  | .block body _ => .job (.block scope body) .done
  | .call callee values _ => .job (.expression scope callee) fun callee =>
    if callee.kind = .function then
      .job (.arguments scope values) fun values => .job (.call callee none values) .done
    else .act (Eval.fail (.notCallable callee.kind)) .done
  | .methodCall receiver name values _ => .job (.expression scope receiver) fun receiver =>
    .job (.arguments scope values) fun values => .job (.send receiver name values) .done
  | .conditional condition thenBranch elseBranch _ => .job (.expression scope condition) fun test =>
    if test.isTruthy then .job (.block scope thenBranch) .done
    else match elseBranch with
      | some branch => .job (.block scope branch) .done
      | none => .done .null
  | .operation operator left right _ => .job (.expression scope left) fun left =>
    .job (.expression scope right) fun right => .job (.send left operator [right]) .done

def planStmt (scope : Scope) : Stmt → Plan Value
  | .declare name value _ =>
    let bound (value : Value) : Plan Value :=
      .act (Eval.modify (·.define scope name value)) fun _ => .done value
    match value with
    | .function params body _ => .act (makeClosure scope params body (some name)) bound
    | value => .job (.expression scope value) bound
  | .assign name value _ => .job (.expression scope value) fun value =>
    .act (Eval.attempt (·.assign? scope name value)) fun
    | true => .done value
    | false => .act (Eval.fail (.undefinedVariable name)) .done
  | .forEach binding iterable body _ => .job (.expression scope iterable) fun
    | .iterator id => .act (Eval.modifyGet (·.openScope scope [(binding, .null)])) fun inner =>
      .job (.rounds inner binding id body .null) .done
    | other => .act (Eval.failAt iterable.span (.notIterable other.kind)) .done
  | .expr value _ => .job (.expression scope value) .done

def planCall (limits : Limits) (receiver : Option Value) (args : List Value) :
    Value → Plan Value
  | .native .whileLoop => .act (functionArgument Native.whileLoop.name args 0) fun condition =>
    .act (functionArgument Native.whileLoop.name args 1) fun body =>
      .job (.loop condition body .null) .done
  | .native (.global function) => .act (function.apply limits args) .done
  | .native (.builtin method) => .act (method.apply receiver args) .done
  | .closure id => .job (.enter id receiver args) .done
  | other => .act (Eval.fail (.notCallable other.kind)) .done

/-- What a job does, within the frame that it has. -/
def plan (limits : Limits) : (α : Type) → Job α → Plan α
  | _, expression scope value => planExpr scope value
  | _, arguments _ [] => .done []
  | _, arguments scope (first :: more) => .job (.expression scope first) fun value =>
    .job (.arguments scope more) fun values => .done (value :: values)
  | _, block scope body =>
    if body.isFunctionBody then .job (.statements scope body.statements .null) .done
    else .act (Eval.modifyGet (·.openScope scope [])) fun inner =>
      .job (.statements inner body.statements .null) .done
  | _, statements _ [] last => .done last
  | _, statements scope (first :: more) _ => .job (.statement scope first) fun value =>
    .job (.statements scope more value) .done
  | _, statement scope stmt => planStmt scope stmt
  | _, rounds scope binding id body last => .act (Eval.modifyGet (·.advanceIterator id)) fun
    | none => .done last
    | some next => .act (Eval.modify (·.define scope binding (.number next))) fun _ =>
      .job (.block scope body) fun value => .job (.rounds scope binding id body value) .done
  | _, send receiver name args => .act (Eval.read (·.method? receiver.kind name)) fun
    | some method => .job (.call method (some receiver) args) .done
    | none => .act (Eval.fail (.unknownOperator name receiver.kind)) .done
  | _, call callee receiver args => planCall limits receiver args callee
  | _, enter id receiver args => .act (Eval.read (·.closures[id]?)) fun
    | some closure =>
      .act (Eval.modifyGet (·.openScope closure.scope (callBindings closure receiver args)))
        fun inner => .job (.block inner closure.body) .done
    | none => .act (Eval.fail (.notCallable .function)) .done
  | _, loop condition body last => .job (.call condition none []) fun test =>
    if test.isTruthy then
      .job (.call body none []) fun value => .job (.loop condition body value) .done
    else .done last

/-- What stands around the plan of a job: faults are placed in expressions and statements,
and a closure is called one call deeper, if there is room. -/
def frame (limits : Limits) : (α : Type) → Job α → Eval α → Eval α
  | _, expression _ value, action => Eval.within value.span action
  | _, statement _ stmt, action => Eval.within stmt.span action
  | _, enter .., action => do
    if limits.maxCallDepth ≤ (← Eval.read Machine.callDepth) then
      Eval.fail (.stackOverflow limits.maxCallDepth)
    else Eval.deeper action
  | _, _, action => action

variable {limits : Limits} {fuel : Nat}

theorem run_zero (job : Job α) : run limits 0 α job = Eval.outOfFuel := by
  cases job <;> simp only [run, evalExpr, evalArgs, evalBlock, evalStatements, evalStmt, forLoop,
    callMethod, callValue, callClosure, whileLoop]

theorem evalExpr_eq (scope : Scope) (value : Expr) :
    evalExpr limits (fuel + 1) scope value =
      Eval.within value.span ((planExpr scope value).run (run limits fuel)) := by
  rw [evalExpr.eq_def]
  refine congrArg (Eval.within value.span) ?_
  cases value with
  | number | string | boolean | null => rfl
  | identifier =>
    refine bind_congr fun found => ?_
    cases found <;> rfl
  | function | trailingBlock | block => exact (Eval.bind_pure _).symm
  | call callee values =>
    refine bind_congr fun callee => ?_
    by_cases callable : callee.kind = .function
    · simp only [if_pos callable]
      exact bind_congr fun _ => (Eval.bind_pure _).symm
    · simp only [if_neg callable]
      rfl
  | methodCall | operation =>
    exact bind_congr fun _ => bind_congr fun _ => (Eval.bind_pure _).symm
  | conditional condition thenBranch elseBranch =>
    refine bind_congr fun test => ?_
    by_cases holds : test.isTruthy = true
    · simp only [if_pos holds]
      exact (Eval.bind_pure _).symm
    · simp only [if_neg holds]
      cases elseBranch with
      | none => rfl
      | some => exact (Eval.bind_pure _).symm

theorem evalStmt_eq (scope : Scope) (stmt : Stmt) :
    evalStmt limits (fuel + 1) scope stmt =
      Eval.within stmt.span ((planStmt scope stmt).run (run limits fuel)) := by
  rw [evalStmt.eq_def]
  refine congrArg (Eval.within stmt.span) ?_
  cases stmt with
  | declare name value => cases value <;> rfl
  | assign =>
    refine bind_congr fun _ => bind_congr fun assigned => ?_
    cases assigned <;> rfl
  | forEach =>
    refine bind_congr fun iterable => ?_
    cases iterable with
    | iterator => exact bind_congr fun _ => (Eval.bind_pure _).symm
    | _ => rfl
  | expr => exact (Eval.bind_pure _).symm

/-- On a machine that is one call deeper, all goes on as before. -/
theorem callClosure_eq (id : ClosureId) (receiver : Option Value) (args : List Value) :
    callClosure limits (fuel + 1) id receiver args =
      (enter id receiver args).frame limits _
        ((plan limits _ (enter id receiver args)).run (run limits fuel)) := by
  funext machine
  rw [callClosure]
  simp only [frame, plan, Bind.bind, Eval.bind, Eval.read]
  by_cases full : limits.maxCallDepth ≤ machine.callDepth
  · simp only [if_pos full]
  · simp only [if_neg full, Eval.deeper, Plan.run, Bind.bind, Eval.bind, Eval.read]
    cases found : machine.closures[id]? with
    | none => rfl
    | some closure =>
      have body : Plan.run (run limits fuel) (.act (Eval.modifyGet (·.openScope closure.scope
          (callBindings closure receiver args))) fun inner => .job (.block inner closure.body)
          .done) = Eval.modifyGet (·.openScope closure.scope (callBindings closure receiver args))
          >>= fun inner => evalBlock limits fuel inner closure.body :=
        bind_congr fun _ => Eval.bind_pure _
      dsimp only
      rw [body]
      rfl

/-- With fuel for one step more, a job is its plan within its frame. -/
theorem run_succ (limits : Limits) (fuel : Nat) (job : Job α) :
    run limits (fuel + 1) α job =
      frame limits α job ((plan limits α job).run (run limits fuel)) := by
  cases job with
  | expression scope value => exact evalExpr_eq scope value
  | arguments scope values =>
    simp only [run]
    rw [evalArgs.eq_def]
    cases values <;> rfl
  | block scope body =>
    simp only [run, frame, plan]
    rw [evalBlock]
    by_cases shared : body.isFunctionBody = true
    · simp only [if_pos shared]
      exact (Eval.bind_pure _).symm
    · simp only [if_neg shared]
      exact bind_congr fun _ => (Eval.bind_pure _).symm
  | statements scope stmts last =>
    simp only [run]
    rw [evalStatements.eq_def]
    cases stmts with
    | nil => rfl
    | cons => exact bind_congr fun _ => (Eval.bind_pure _).symm
  | statement scope stmt => exact evalStmt_eq scope stmt
  | rounds scope binding id body last =>
    simp only [run]
    rw [forLoop]
    refine bind_congr fun next => ?_
    cases next with
    | none => rfl
    | some => exact bind_congr fun _ => bind_congr fun _ => (Eval.bind_pure _).symm
  | send receiver name args =>
    simp only [run]
    rw [callMethod]
    refine bind_congr fun found => ?_
    cases found with
    | none => rfl
    | some => exact (Eval.bind_pure _).symm
  | call callee receiver args =>
    simp only [run]
    rw [callValue.eq_def]
    cases callee with
    | native function =>
      cases function with
      | whileLoop => exact bind_congr fun _ => bind_congr fun _ => (Eval.bind_pure _).symm
      | global | builtin => exact (Eval.bind_pure _).symm
    | closure => exact (Eval.bind_pure _).symm
    | _ => rfl
  | enter id receiver args => exact callClosure_eq id receiver args
  | loop condition body last =>
    simp only [run]
    rw [whileLoop]
    refine bind_congr fun test => ?_
    by_cases holds : test.isTruthy = true
    · simp only [if_pos holds]
      exact bind_congr fun _ => (Eval.bind_pure _).symm
    · simp only [if_neg holds]
      rfl

end Job

/-- `plan.Asks jobs machine part machine'`: followed from `machine`, the plan comes to ask for
the job `part`, on `machine'`. -/
inductive Plan.Asks (jobs : ∀ β, Job β → Eval β) :
    {α : Type} → Plan α → Machine → {β : Type} → Job β → Machine → Prop
  | here : Asks jobs (.job part next) machine part machine
  | act (ran : action machine = .value result between)
      (later : Asks jobs (next result) between part machine') :
      Asks jobs (.act action next) machine part machine'
  | job (ran : jobs _ first machine = .value result between)
      (later : Asks jobs (next result) between part machine') :
      Asks jobs (.job first next) machine part machine'

namespace Job

/-- How many bodies of closures a job evaluates by itself. -/
def bodies : (α : Type) → Job α → Nat
  | _, enter .. => 1
  | _, _ => 0

/-- Whether the plan of a job is followed at all: there must be room for one more call. -/
def Admits (limits : Limits) (machine : Machine) : (α : Type) → Job α → Prop
  | _, enter .. => machine.callDepth < limits.maxCallDepth
  | _, _ => True

/-- The machine on which the plan of a job is followed. -/
def inner (machine : Machine) : (α : Type) → Job α → Machine
  | _, enter .. => { machine with callDepth := machine.callDepth + 1 }
  | _, _ => machine

end Job

/-- `During limits job fuel machine part fuel' machine' bodies`: a run of `job` comes to the
evaluation of `part` on `machine'`, at a moment when the bodies of so many closures, one
within the other, are being evaluated. -/
inductive During (limits : Limits) : {α : Type} → Job α → Nat → Machine →
    {β : Type} → Job β → Nat → Machine → Nat → Prop
  | here : During limits job fuel machine job fuel machine 0
  | inside (admits : job.Admits limits machine _)
      (asks : (job.plan limits _).Asks (Job.run limits fuel) (job.inner machine _) part between)
      (later : During limits part fuel between other fuel' machine' bodies) :
      During limits job (fuel + 1) machine other fuel' machine' (job.bodies _ + bodies)

end PixelScript
