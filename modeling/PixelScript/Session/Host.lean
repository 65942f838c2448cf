import PixelScript.Diagnostic
import PixelScript.Evaluation.Interpreter
import PixelScript.Syntax.Grammar

/-! What a host can do in a scope of a machine: run scripts, reach bindings and methods,
call functions, and take values from iterators. -/
namespace PixelScript

/-- Values that a host can make or has at hand. -/
inductive HostValue where
  | null
  | boolean (value : Bool)
  | string (text : String)
  | number (value : Float)
  | range (start last : Float) (inclusive : Bool)
  | canvas (width height : Nat)
  /-- What a name is bound to, null if it is not. -/
  | reference (name : String)
  /-- A value from an earlier answer, null if there are not so many. -/
  | obtained (index : Nat)

/-- Makes a host value on a machine, for a host that holds the values of earlier answers. -/
def HostValue.make (scope : Scope) (held : List Value) (machine : Machine) :
    HostValue → Value × Machine
  | null => (.null, machine)
  | boolean value => (.boolean value, machine)
  | string text => (.string text, machine)
  | number value => (.number value, machine)
  | range start last inclusive => machine.addRange (Range.between start last inclusive)
  | canvas width height => machine.addBuffer (PixelBuffer.blank width height)
  | reference name => ((machine.lookup? scope name).getD .null, machine)
  | obtained index => (held[index]?.getD .null, machine)

/-- Makes several host values, in order. -/
def HostValue.makeAll (scope : Scope) (held : List Value) (machine : Machine) :
    List HostValue → List Value × Machine
  | [] => ([], machine)
  | first :: more =>
    let (value, machine) := first.make scope held machine
    let (values, machine) := makeAll scope held machine more
    (value :: values, machine)

/-- What a host can do in one environment without making another. -/
inductive HostAction where
  | run (source : String)
  | define (name : String) (value : HostValue)
  | assign (name : String) (value : HostValue)
  | get (name : String)
  | listing
  | equal (first second : HostValue)
  | limits
  | lookupMethod (kind : ValueKind) (name : String) (saveAs : Option String)
  | registerMethod (kind : ValueKind) (name : String) (value : HostValue)
  | call (callee : HostValue) (receiver : Option HostValue) (args : List HostValue)
  | callMethod (receiver : HostValue) (name : String) (args : List HostValue)
  | next (name : String)
  | print (line : String)

/-- What a host learns from an action. -/
inductive HostAnswer where
  | done
  | value (value : Value)
  | maybe (value : Option Value)
  | error (error : ScriptError)
  | notAssignable
  | listing (text : String)
  | equal (same : Bool)
  | limits (limits : Limits)
  | outOfFuel

/-- What a host is told when it assigns to a name that is not bound. -/
def HostAnswer.notAssignableMessage : String :=
  "no binding with this name is in scope"

/-- The value that an answer gives to the host. -/
def HostAnswer.value? : HostAnswer → Option Value
  | value result => some result
  | maybe found => found
  | _ => none

/-- A scope as listings show it: the names of its innermost frame in order. -/
def Machine.scopeListing (machine : Machine) (scope : Scope) : String :=
  let names := match scope with
    | [] => []
    | frame :: _ => (machine.bindings frame).names
  let sorted := names.mergeSort fun first second => decide (first ≤ second)
  let hasParent := decide (1 < scope.length)
  "Environment \x7b bindings: [" ++ ", ".intercalate (sorted.map Text.quote) ++ "], has_parent: " ++
    (if hasParent then "true" else "false") ++ " \x7d"

/-- Ends an evaluation for the host. -/
def HostAnswer.ofOutcome (machine : Machine) : Outcome Value → HostAnswer × Machine
  | .value result machine => (.value result, machine)
  | .fault fault machine => (.error (.failed fault), machine)
  | .outOfFuel => (.outOfFuel, machine)

namespace HostAction

/-- Carries out an action in a scope of a machine. -/
def perform (limits : Limits) (scope : Scope) (held : List Value) (machine : Machine) :
    HostAction → HostAnswer × Machine
  | run source =>
    match Program.parse source with
    | .ok program =>
      HostAnswer.ofOutcome machine (program.eval limits Evaluation.ampleFuel scope machine)
    | .error error => (.error (.malformed error), machine)
  | define name value =>
    let (value, machine) := value.make scope held machine
    (.done, machine.define scope name value)
  | assign name value =>
    let (value, machine) := value.make scope held machine
    match machine.assign? scope name value with
    | some machine => (.done, machine)
    | none => (.notAssignable, machine)
  | get name => (.maybe (machine.lookup? scope name), machine)
  | listing => (.listing (machine.scopeListing scope), machine)
  | equal first second =>
    let (first, machine) := first.make scope held machine
    let (second, machine) := second.make scope held machine
    (.equal (first.equal second), machine)
  | .limits => (.limits limits, machine)
  | lookupMethod kind name saveAs =>
    match machine.method? kind name, saveAs with
    | some method, some name => (.maybe (some method), machine.define scope name method)
    | found, _ => (.maybe found, machine)
  | registerMethod kind name value =>
    let (value, machine) := value.make scope held machine
    (.done, machine.registerMethod kind name value)
  | call callee receiver args =>
    let (callee, machine) := callee.make scope held machine
    let (receiver, machine) := HostValue.makeAll scope held machine receiver.toList
    let (args, machine) := HostValue.makeAll scope held machine args
    HostAnswer.ofOutcome machine
      (Evaluation.callValue limits Evaluation.ampleFuel callee receiver.head? args machine)
  | callMethod receiver name args =>
    let (receiver, machine) := receiver.make scope held machine
    let (args, machine) := HostValue.makeAll scope held machine args
    HostAnswer.ofOutcome machine
      (Evaluation.callMethod limits Evaluation.ampleFuel receiver name args machine)
  | next name =>
    match machine.lookup? scope name with
    | some (.iterator id) =>
      let (value, machine) := machine.advanceIterator id
      (.maybe (value.map .number), machine)
    | _ => (.maybe none, machine)
  | print line => (.done, machine.printLine line)

end HostAction
end PixelScript
