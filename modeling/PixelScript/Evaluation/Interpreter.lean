import PixelScript.Evaluation.Builtins

/-! Evaluation of syntax trees. A program runs directly in the scope it is given. A
plain block, a branch and each round of a loop open a scope of their own; a call opens
one scope inside that of the closure, and the body shares it. Each step down the tree
or into a call, and each round of a loop, takes one unit of fuel, so that the functions
are total; a run that ends does so with every larger amount. -/
namespace PixelScript
namespace Evaluation

/-- The name of the receiver inside a method. -/
def selfName : String := "self"

/-- Binds parameters in order; a missing argument is null and an extra one is dropped. -/
def bindParameters : List String → List Value → Bindings → Bindings
  | [], _, bindings => bindings
  | name :: names, args, bindings =>
    bindParameters names args.tail (bindings.insert name (args.head?.getD .null))

/-- The bindings that a call starts with. -/
def callBindings (closure : Closure) (receiver : Option Value) (args : List Value) : Bindings :=
  bindParameters closure.params args (receiver.toList.map fun value => (selfName, value))

def makeClosure (scope : Scope) (params : List String) (body : Block) (name : Option String) :
    Eval Value :=
  Eval.modifyGet (·.addClosure ⟨params, body, scope, name⟩)

mutual

def evalExpr (limits : Limits) (fuel : Nat) (scope : Scope) (expr : Expr) : Eval Value :=
  match fuel with
  | 0 => Eval.outOfFuel
  | fuel + 1 => Eval.within expr.span <|
    match expr with
    | .number value _ => pure (.number value)
    | .string text _ => pure (.string text)
    | .boolean value _ => pure (.boolean value)
    | .null _ => pure .null
    | .identifier name _ => do
      match ← Eval.read (·.lookup? scope name) with
      | some value => return value
      | none => Eval.fail (.undefinedVariable name)
    | .function params body _ => makeClosure scope params body none
    | .trailingBlock body _ => makeClosure scope [] body none
    | .block body _ => evalBlock limits fuel scope body
    | .call callee args _ => do
      let callee ← evalExpr limits fuel scope callee
      if callee.kind = .function then
        let args ← evalArgs limits fuel scope args
        callValue limits fuel callee none args
      else Eval.fail (.notCallable callee.kind)
    | .methodCall receiver method args _ => do
      let receiver ← evalExpr limits fuel scope receiver
      let args ← evalArgs limits fuel scope args
      callMethod limits fuel receiver method args
    | .conditional condition thenBranch elseBranch _ => do
      let condition ← evalExpr limits fuel scope condition
      if condition.isTruthy then evalBlock limits fuel scope thenBranch
      else match elseBranch with
        | some branch => evalBlock limits fuel scope branch
        | none => return .null
    | .operation operator left right _ => do
      let left ← evalExpr limits fuel scope left
      let right ← evalExpr limits fuel scope right
      callMethod limits fuel left operator [right]

/-- Arguments from left to right. -/
def evalArgs (limits : Limits) (fuel : Nat) (scope : Scope) (args : List Expr) :
    Eval (List Value) :=
  match fuel with
  | 0 => Eval.outOfFuel
  | fuel + 1 =>
    match args with
    | [] => pure []
    | first :: more => do
      let value ← evalExpr limits fuel scope first
      let values ← evalArgs limits fuel scope more
      return value :: values

def evalBlock (limits : Limits) (fuel : Nat) (scope : Scope) (block : Block) : Eval Value :=
  match fuel with
  | 0 => Eval.outOfFuel
  | fuel + 1 =>
    if block.isFunctionBody then evalStatements limits fuel scope block.statements .null
    else do
      let inner ← Eval.modifyGet (·.openScope scope [])
      evalStatements limits fuel inner block.statements .null

/-- Statements in order; the value of the last is the result, or `last` without any. -/
def evalStatements (limits : Limits) (fuel : Nat) (scope : Scope) (statements : List Stmt)
    (last : Value) : Eval Value :=
  match fuel with
  | 0 => Eval.outOfFuel
  | fuel + 1 =>
    match statements with
    | [] => pure last
    | first :: more => do
      let value ← evalStmt limits fuel scope first
      evalStatements limits fuel scope more value

def evalStmt (limits : Limits) (fuel : Nat) (scope : Scope) (stmt : Stmt) : Eval Value :=
  match fuel with
  | 0 => Eval.outOfFuel
  | fuel + 1 => Eval.within stmt.span <|
    match stmt with
    | .declare name value _ => do
      let value ← match value with
        | .function params body _ => makeClosure scope params body (some name)
        | _ => evalExpr limits fuel scope value
      Eval.modify (·.define scope name value)
      return value
    | .assign name value _ => do
      let value ← evalExpr limits fuel scope value
      if ← Eval.attempt (·.assign? scope name value) then return value
      else Eval.fail (.undefinedVariable name)
    | .forEach binding iterable body _ => do
      match ← evalExpr limits fuel scope iterable with
      | .iterator id =>
        let inner ← Eval.modifyGet (·.openScope scope [(binding, .null)])
        forLoop limits fuel inner binding id body .null
      | other => Eval.failAt iterable.span (.notIterable other.kind)
    | .expr value _ => evalExpr limits fuel scope value

/-- The rounds of a loop; `last` is the value of the round before. -/
def forLoop (limits : Limits) (fuel : Nat) (scope : Scope) (binding : String) (id : IteratorId)
    (body : Block) (last : Value) : Eval Value :=
  match fuel with
  | 0 => Eval.outOfFuel
  | fuel + 1 => do
    match ← Eval.modifyGet (·.advanceIterator id) with
    | none => return last
    | some next =>
      Eval.modify (·.define scope binding (.number next))
      let value ← evalBlock limits fuel scope body
      forLoop limits fuel scope binding id body value

/-- Calls the method that the receiver's kind has under a name. -/
def callMethod (limits : Limits) (fuel : Nat) (receiver : Value) (name : String)
    (args : List Value) : Eval Value :=
  match fuel with
  | 0 => Eval.outOfFuel
  | fuel + 1 => do
    match ← Eval.read (·.method? receiver.kind name) with
    | some method => callValue limits fuel method (some receiver) args
    | none => Eval.fail (.unknownOperator name receiver.kind)

/-- Applies a function. A closure sees the receiver under its own name; a native
function gets it as it is. -/
def callValue (limits : Limits) (fuel : Nat) (callee : Value) (receiver : Option Value)
    (args : List Value) : Eval Value :=
  match fuel with
  | 0 => Eval.outOfFuel
  | fuel + 1 =>
    match callee with
    | .native .whileLoop => do
      let condition ← functionArgument Native.whileLoop.name args 0
      let body ← functionArgument Native.whileLoop.name args 1
      whileLoop limits fuel condition body .null
    | .native (.global function) => function.apply limits args
    | .native (.builtin method) => method.apply receiver args
    | .closure id => callClosure limits fuel id receiver args
    | other => Eval.fail (.notCallable other.kind)

def callClosure (limits : Limits) (fuel : Nat) (id : ClosureId) (receiver : Option Value)
    (args : List Value) : Eval Value :=
  match fuel with
  | 0 => Eval.outOfFuel
  | fuel + 1 => do
    if limits.maxCallDepth ≤ (← Eval.read Machine.callDepth) then
      Eval.fail (.stackOverflow limits.maxCallDepth)
    else
      match ← Eval.read (·.closures[id]?) with
      | some closure =>
        let inner ← Eval.modifyGet (·.openScope closure.scope (callBindings closure receiver args))
        Eval.deeper (evalBlock limits fuel inner closure.body)
      | none => Eval.fail (.notCallable .function)

/-- Calls `body` as long as `condition` gives something true. -/
def whileLoop (limits : Limits) (fuel : Nat) (condition body last : Value) : Eval Value :=
  match fuel with
  | 0 => Eval.outOfFuel
  | fuel + 1 => do
    let test ← callValue limits fuel condition none []
    if test.isTruthy then
      let value ← callValue limits fuel body none []
      whileLoop limits fuel condition body value
    else return last

end

/-- More steps than any run takes in practice. -/
def ampleFuel : Nat := Nat.pow 2 62

end Evaluation

/-- Runs a program in a scope; the value of its last statement is the result. -/
def Program.eval (limits : Limits) (fuel : Nat) (scope : Scope) (program : Program) : Eval Value :=
  Evaluation.evalStatements limits fuel scope program.statements .null

end PixelScript
