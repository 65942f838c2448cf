/-! Values of scripts. Numbers, strings, booleans and null stand for themselves;
closures, iterators and pixel buffers are handles to cells of a machine, so that a
change through one handle shows through all. -/
namespace PixelScript

inductive ValueKind where
  | number | string | boolean | null | function | iterator | pixelBuffer
deriving DecidableEq

namespace ValueKind

def all : List ValueKind :=
  [number, string, boolean, null, function, iterator, pixelBuffer]

def name : ValueKind → String
  | number => "number"
  | string => "string"
  | boolean => "boolean"
  | null => "null"
  | function => "function"
  | iterator => "iterator"
  | pixelBuffer => "pixelBuffer"

def ofName? (name : String) : Option ValueKind :=
  all.find? (·.name == name)

/-- A value of the kind, as messages ask for one. -/
def noun : ValueKind → String
  | number => "a number"
  | string => "a string"
  | boolean => "a boolean"
  | null => "null"
  | function => "a function"
  | iterator => "an iterator"
  | pixelBuffer => "a pixel buffer"

end ValueKind

/-- Functions of a fresh global scope that never call back into scripts. -/
inductive GlobalFunction where
  | print | canvas | canvasWidth | canvasHeight | fillCanvas | setPixel | registerMethod | typeOf
deriving DecidableEq

def GlobalFunction.all : List GlobalFunction :=
  [.print, .canvas, .canvasWidth, .canvasHeight, .fillCanvas, .setPixel, .registerMethod, .typeOf]

def GlobalFunction.name : GlobalFunction → String
  | .print => "print"
  | .canvas => "canvas"
  | .canvasWidth => "canvasWidth"
  | .canvasHeight => "canvasHeight"
  | .fillCanvas => "fillCanvas"
  | .setPixel => "setPixel"
  | .registerMethod => "registerMethod"
  | .typeOf => "typeOf"

inductive Arithmetic where
  | plus | minus | times | dividedBy
deriving DecidableEq

inductive Comparison where
  | lessThan | lessThanOrEqual | greaterThan | greaterThanOrEqual
deriving DecidableEq

/-- Methods that the kinds have in a fresh runtime. -/
inductive BuiltinMethod where
  | arithmetic (operation : Arithmetic)
  | comparison (test : Comparison)
  | numberEquals
  | range (inclusive : Bool)
  | stringPlus
  | stringEquals
  | booleanAnd
  | booleanOr
  | booleanEquals
deriving DecidableEq

namespace BuiltinMethod

def all : List BuiltinMethod :=
  [.plus, .minus, .times, .dividedBy].map arithmetic ++ [numberEquals] ++
    [.lessThan, .lessThanOrEqual, .greaterThan, .greaterThanOrEqual].map comparison ++
    [range false, range true, stringPlus, stringEquals, booleanAnd, booleanOr, booleanEquals]

def name : BuiltinMethod → String
  | arithmetic .plus => "plus"
  | arithmetic .minus => "minus"
  | arithmetic .times => "times"
  | arithmetic .dividedBy => "dividedBy"
  | comparison .lessThan => "lessThan"
  | comparison .lessThanOrEqual => "lessThanOrEqual"
  | comparison .greaterThan => "greaterThan"
  | comparison .greaterThanOrEqual => "greaterThanOrEqual"
  | numberEquals => "equals"
  | range false => "rangeExclusive"
  | range true => "rangeInclusive"
  | stringPlus => "plus"
  | stringEquals => "equals"
  | booleanAnd => "and"
  | booleanOr => "or"
  | booleanEquals => "equals"

/-- The kind whose values have the method. -/
def receiverKind : BuiltinMethod → ValueKind
  | arithmetic _ | comparison _ | numberEquals | range _ => .number
  | stringPlus | stringEquals => .string
  | booleanAnd | booleanOr | booleanEquals => .boolean

end BuiltinMethod

/-- Functions that are not written in the language. -/
inductive Native where
  /-- Calls its second argument as long as its first gives something true. -/
  | whileLoop
  | global (function : GlobalFunction)
  | builtin (method : BuiltinMethod)
deriving DecidableEq

def Native.name : Native → String
  | .whileLoop => "while"
  | .global function => function.name
  | .builtin method => method.name

abbrev ClosureId := Nat
abbrev IteratorId := Nat
abbrev BufferId := Nat

inductive Value where
  | number (value : Float)
  | string (text : String)
  | boolean (value : Bool)
  | null
  | closure (id : ClosureId)
  | native (function : Native)
  | iterator (id : IteratorId)
  | pixelBuffer (id : BufferId)

namespace Value

def kind : Value → ValueKind
  | number _ => .number
  | string _ => .string
  | boolean _ => .boolean
  | null => .null
  | closure _ | native _ => .function
  | iterator _ => .iterator
  | pixelBuffer _ => .pixelBuffer

def number? : Value → Option Float
  | number value => some value
  | _ => none

def string? : Value → Option String
  | string text => some text
  | _ => none

def boolean? : Value → Option Bool
  | boolean value => some value
  | _ => none

def pixelBuffer? : Value → Option BufferId
  | pixelBuffer id => some id
  | _ => none

/-- The value itself if it can be called. -/
def function? (value : Value) : Option Value :=
  if value.kind = .function then some value else none

/-- Null, false, both zeros and the empty string are false; everything else, NaN too,
is true. -/
def isTruthy : Value → Bool
  | number value => value != 0
  | string text => !text.isEmpty
  | boolean value => value
  | null => false
  | closure _ | native _ | iterator _ | pixelBuffer _ => true

/-- Equality as hosts see it: handles are equal if they are the same handle, and
native functions if they have the same name. -/
def equal : Value → Value → Bool
  | number first, number second => first == second
  | string first, string second => first == second
  | boolean first, boolean second => first == second
  | null, null => true
  | closure first, closure second => first == second
  | native first, native second => first.name == second.name
  | iterator first, iterator second => first == second
  | pixelBuffer first, pixelBuffer second => first == second
  | _, _ => false

end Value
end PixelScript
