import PixelScript.Decimal.Format
import PixelScript.Machine.Table
import PixelScript.Syntax.Tree
import PixelScript.Text.Quoted
import PixelScript.Value.Basic
import PixelScript.Value.PixelBuffer
import PixelScript.Value.Range

/-! The machine that scripts run on: all cells that handles refer to, the methods of
each kind, the printed text, and how many calls are under way. A scope is a chain of
frames, the innermost first; frames are never removed, and a frame's place in the
chain never changes, so closures keep the chain they were made in. -/
namespace PixelScript

abbrev FrameId := Nat

/-- Frames from the innermost outwards. -/
abbrev Scope := List FrameId

abbrev Bindings := Table String Value

abbrev MethodTable := Table (ValueKind × String) Value

/-- A function written in the language, with the scope that it was made in. -/
structure Closure where
  params : List String
  body : Block
  scope : Scope
  name : Option String

/-- Printed text, which a silent console drops. -/
structure Console where
  silent : Bool
  text : String

def Console.printLine (console : Console) (line : String) : Console :=
  if console.silent then console else { console with text := console.text ++ line ++ "\n" }

structure Machine where
  frames : Array Bindings
  closures : Array Closure
  iterators : Array Range
  buffers : Array PixelBuffer
  methods : MethodTable
  console : Console
  callDepth : Nat

namespace Machine

/-- A machine without frames or methods. -/
def empty (silent : Bool) : Machine :=
  ⟨#[], #[], #[], #[], [], ⟨silent, ""⟩, 0⟩

/-- Adds a frame with the given bindings inside `scope`. -/
def openScope (machine : Machine) (scope : Scope) (bindings : Bindings) : Scope × Machine :=
  (machine.frames.size :: scope, { machine with frames := machine.frames.push bindings })

def bindings (machine : Machine) (frame : FrameId) : Bindings :=
  machine.frames[frame]?.getD []

/-- Looks a name up in a frame of a scope and then in each one further out. -/
def lookup? (machine : Machine) : Scope → String → Option Value
  | [], _ => none
  | frame :: outer, name =>
    match (machine.bindings frame).get? name with
    | some value => some value
    | none => machine.lookup? outer name

/-- Binds a name in a frame, whether or not it was bound there. -/
def bindIn (machine : Machine) (frame : FrameId) (name : String) (value : Value) : Machine :=
  { machine with frames := machine.frames.modify frame (·.insert name value) }

/-- Binds a name in the innermost frame. -/
def define (machine : Machine) (scope : Scope) (name : String) (value : Value) : Machine :=
  match scope with
  | [] => machine
  | frame :: _ => machine.bindIn frame name value

/-- Gives a new value to a name in the first frame that binds it, from the innermost
outwards; `none` if no frame does. -/
def assign? (machine : Machine) : Scope → String → Value → Option Machine
  | [], _, _ => none
  | frame :: outer, name, value =>
    match (machine.bindings frame).get? name with
    | some _ => some (machine.bindIn frame name value)
    | none => machine.assign? outer name value

def addClosure (machine : Machine) (closure : Closure) : Value × Machine :=
  (.closure machine.closures.size, { machine with closures := machine.closures.push closure })

def addRange (machine : Machine) (range : Range) : Value × Machine :=
  (.iterator machine.iterators.size, { machine with iterators := machine.iterators.push range })

def addBuffer (machine : Machine) (buffer : PixelBuffer) : Value × Machine :=
  (.pixelBuffer machine.buffers.size, { machine with buffers := machine.buffers.push buffer })

/-- Takes the next value from an iterator. -/
def advanceIterator (machine : Machine) (id : IteratorId) : Option Float × Machine :=
  match machine.iterators[id]? with
  | none => (none, machine)
  | some range =>
    let (value, range) := range.advance
    (value, { machine with iterators := machine.iterators.setIfInBounds id range })

def updateBuffer (machine : Machine) (id : BufferId) (change : PixelBuffer → PixelBuffer) :
    Machine :=
  { machine with buffers := machine.buffers.modify id change }

def method? (machine : Machine) (kind : ValueKind) (name : String) : Option Value :=
  machine.methods.get? (kind, name)

def registerMethod (machine : Machine) (kind : ValueKind) (name : String) (method : Value) :
    Machine :=
  { machine with methods := machine.methods.insert (kind, name) method }

def printLine (machine : Machine) (line : String) : Machine :=
  { machine with console := machine.console.printLine line }

/-- The text of a value as scripts print it. -/
def display (machine : Machine) : Value → String
  | .number value => Decimal.script.write value
  | .string text => text
  | .boolean value => if value then "true" else "false"
  | .null => "null"
  | .closure id =>
    match (machine.closures[id]?).bind Closure.name with
    | some name => "<function " ++ name ++ ">"
    | none => "<function>"
  | .native function => "<native " ++ function.name ++ ">"
  | .iterator _ => "<iterator>"
  | .pixelBuffer id =>
    let (width, height) := match machine.buffers[id]? with
      | some buffer => (buffer.width, buffer.height)
      | none => (0, 0)
    "<pixelBuffer " ++ toString width ++ "x" ++ toString height ++ ">"

/-- The text of a value as listings show it: strings, numbers and booleans are marked
as such. -/
def listing (machine : Machine) : Value → String
  | .number value => "Number(" ++ Decimal.plain.write value ++ ")"
  | .string text => "Str(" ++ Text.quote text ++ ")"
  | .boolean value => "Bool(" ++ machine.display (.boolean value) ++ ")"
  | value => machine.display value

end Machine
end PixelScript
