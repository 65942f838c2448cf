import PixelScript.Evaluation.Outcome
import PixelScript.Machine.Limits

/-! The functions that scripts find ready-made and that never call back: the operator
methods of numbers, strings and booleans, and the global functions. All arguments are
checked before anything changes. -/
namespace PixelScript

/-- The argument at an index; a missing one is null. -/
def argument (args : List Value) (index : Nat) : Value :=
  args[index]?.getD .null

/-- The argument at an index as `view` sees it; a fault if it is not of the kind that is
expected. Messages count arguments from one. -/
def argumentAs {α : Type} (view : Value → Option α) (expected : ValueKind) (function : String)
    (args : List Value) (index : Nat) : Eval α :=
  match view (argument args index) with
  | some result => pure result
  | none => Eval.fail (.argumentKind function (index + 1) expected (argument args index).kind)

def numberArgument : String → List Value → Nat → Eval Float :=
  argumentAs Value.number? .number

def stringArgument : String → List Value → Nat → Eval String :=
  argumentAs Value.string? .string

def booleanArgument : String → List Value → Nat → Eval Bool :=
  argumentAs Value.boolean? .boolean

def functionArgument : String → List Value → Nat → Eval Value :=
  argumentAs Value.function? .function

def bufferArgument : String → List Value → Nat → Eval BufferId :=
  argumentAs Value.pixelBuffer? .pixelBuffer

def Arithmetic.apply : Arithmetic → Float → Float → Float
  | plus, left, right => left + right
  | minus, left, right => left - right
  | times, left, right => left * right
  | dividedBy, left, right => left / right

def Comparison.apply : Comparison → Float → Float → Bool
  | lessThan, left, right => left < right
  | lessThanOrEqual, left, right => left ≤ right
  | greaterThan, left, right => left > right
  | greaterThanOrEqual, left, right => left ≥ right

namespace BuiltinMethod

/-- What the right operand adds to a string: strings as they are, numbers and booleans
as printed, anything else nothing. -/
def appendedText (machine : Machine) (operand : Value) : String :=
  match operand.kind with
  | .string | .number | .boolean => machine.display operand
  | _ => ""

/-- Applies a method to its receiver and arguments, the first of which is the right
operand. Called without a receiver, or on one of another kind, no method applies. -/
def apply (method : BuiltinMethod) (receiver : Option Value) (args : List Value) : Eval Value :=
  match method, receiver with
  | arithmetic operation, some (.number left) => do
    let right ← numberArgument method.name args 0
    return .number (operation.apply left right)
  | comparison test, some (.number left) => do
    let right ← numberArgument method.name args 0
    return .boolean (test.apply left right)
  | numberEquals, some left@(.number _) => return .boolean (left.equal (argument args 0))
  | range inclusive, some (.number start) => do
    let last ← numberArgument method.name args 0
    Eval.modifyGet (·.addRange (Range.between start last inclusive))
  | stringPlus, some (.string left) => do
    let right ← Eval.read (appendedText · (argument args 0))
    return .string (left ++ right)
  | stringEquals, some left@(.string _) => return .boolean (left.equal (argument args 0))
  | booleanAnd, some (.boolean left) => do
    let right ← booleanArgument method.name args 0
    return .boolean (left && right)
  | booleanOr, some (.boolean left) => do
    let right ← booleanArgument method.name args 0
    return .boolean (left || right)
  | booleanEquals, some left@(.boolean _) => return .boolean (left.equal (argument args 0))
  | _, _ => Eval.fail (.unknownOperator method.name ((receiver.map Value.kind).getD .null))

end BuiltinMethod

/-- Red, green and blue from three arguments, and alpha from a fourth, which is opaque
if missing or null. -/
def colorArguments (function : String) (args : List Value) (first : Nat) : Eval Color := do
  let red ← numberArgument function args first
  let green ← numberArgument function args (first + 1)
  let blue ← numberArgument function args (first + 2)
  let alpha ← match argument args (first + 3) with
    | .null => pure 255
    | _ => numberArgument function args (first + 3)
  return ⟨Color.channel red, Color.channel green, Color.channel blue, Color.channel alpha⟩

/-- The largest whole number that is not above the given one. From 2^53 on all numbers are
whole; infinities and NaN stay what they are. -/
def roundedDown (value : Float) : Float :=
  let size := if value < 0 then -value else value
  if size < 9007199254740992 then
    let whole := size.toUInt64.toFloat
    if whole == size then value else if value < 0 then -(whole + 1) else whole
  else value

/-- The side of a canvas from a number rounded down: at least one, and within the
limit. -/
def canvasSide? (limit : Option Nat) : Value → Option Nat
  | .number value =>
    let floored := roundedDown value
    if floored.isFinite && floored ≥ 1 then
      let side := floored.toUInt64.toNat
      if limit.all (side ≤ ·) then some side else none
    else none
  | _ => none

def isCoordinate (value : Float) (size : Nat) : Bool :=
  value.isFinite && value ≥ 0 && value < Float.ofNat size

namespace GlobalFunction

def printValues (args : List Value) : Eval Value := do
  Eval.modify fun machine => machine.printLine (" ".intercalate (args.map machine.display))
  return .null

def makeCanvas (limits : Limits) (args : List Value) : Eval Value :=
  let width := argument args 0
  let height := argument args 1
  match canvasSide? limits.maxCanvasSide width, canvasSide? limits.maxCanvasSide height with
  | some columns, some rows =>
    if PixelBuffer.isAddressable columns rows then
      Eval.modifyGet (·.addBuffer (PixelBuffer.blank columns rows))
    else refuse width height
  | _, _ => refuse width height
where
  refuse (width height : Value) : Eval Value := do
    let texts ← Eval.read fun machine => (machine.display width, machine.display height)
    Eval.fail (.canvasDimension texts.1 texts.2)

/-- A measure of the buffer that is the first argument. -/
def measure (function : GlobalFunction) (size : PixelBuffer → Nat) (args : List Value) :
    Eval Value := do
  let id ← bufferArgument function.name args 0
  let length ← Eval.read fun machine => (machine.buffers[id]?.map size).getD 0
  return .number (Float.ofNat length)

def fillBuffer (args : List Value) : Eval Value := do
  let id ← bufferArgument fillCanvas.name args 0
  let color ← colorArguments fillCanvas.name args 1
  Eval.modify (·.updateBuffer id (·.fill color))
  return .pixelBuffer id

/-- Coordinates are rounded down before they are compared with the sides. -/
def colorPixel (args : List Value) : Eval Value := do
  let id ← bufferArgument setPixel.name args 0
  let x ← numberArgument setPixel.name args 1
  let y ← numberArgument setPixel.name args 2
  let color ← colorArguments setPixel.name args 3
  let column := roundedDown x
  let row := roundedDown y
  let (width, height) ← Eval.read fun machine =>
    (machine.buffers[id]?.map fun buffer => (buffer.width, buffer.height)).getD (0, 0)
  if isCoordinate column width && isCoordinate row height then
    Eval.modify (·.updateBuffer id fun buffer =>
      (buffer.setPixel column.toUInt64.toNat row.toUInt64.toNat color).2)
    return .pixelBuffer id
  else Eval.fail (.outOfBounds column row width height)

def addMethod (args : List Value) : Eval Value := do
  let kindName ← stringArgument registerMethod.name args 0
  let name ← stringArgument registerMethod.name args 1
  let function ← functionArgument registerMethod.name args 2
  match ValueKind.ofName? kindName with
  | some kind =>
    Eval.modify (·.registerMethod kind name function)
    return .null
  | none => Eval.fail (.unknownKind kindName)

def apply (limits : Limits) (function : GlobalFunction) (args : List Value) : Eval Value :=
  match function with
  | print => printValues args
  | canvas => makeCanvas limits args
  | canvasWidth => measure canvasWidth PixelBuffer.width args
  | canvasHeight => measure canvasHeight PixelBuffer.height args
  | fillCanvas => fillBuffer args
  | setPixel => colorPixel args
  | registerMethod => addMethod args
  | typeOf => return .string (argument args 0).kind.name

end GlobalFunction
end PixelScript
