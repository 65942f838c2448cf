import PixelScript.Decimal.Format
import PixelScript.Source.Span
import PixelScript.Value.Basic

/-! Faults: what can go wrong while a script runs. A fault takes the span of the
innermost expression or statement that failed. -/
namespace PixelScript

inductive Fault.Cause where
  | undefinedVariable (name : String)
  | notCallable (kind : ValueKind)
  | unknownOperator (name : String) (kind : ValueKind)
  | argumentKind (function : String) (position : Nat) (expected found : ValueKind)
  | canvasDimension (width height : String)
  | outOfBounds (x y : Float) (width height : Nat)
  | notIterable (kind : ValueKind)
  | unknownKind (name : String)
  | stackOverflow (limit : Nat)

def Fault.Cause.message : Fault.Cause → String
  | undefinedVariable name => "undefined variable: " ++ name
  | notCallable kind => kind.name ++ " is not callable"
  | unknownOperator name kind => "no operator '" ++ name ++ "' for " ++ kind.name
  | argumentKind function position expected found =>
    function ++ " expects argument " ++ toString position ++ " to be " ++ expected.noun ++
      ", found " ++ found.name
  | canvasDimension width height =>
    "canvas dimensions must be finite positive numbers, got " ++ width ++ " x " ++ height
  | outOfBounds x y width height =>
    "pixel (" ++ Decimal.plain.write x ++ ", " ++ Decimal.plain.write y ++ ") is outside the " ++
      toString width ++ "x" ++ toString height ++ " canvas"
  | notIterable kind => "for loop requires an iterator, found " ++ kind.name
  | unknownKind name => "unknown value kind '" ++ name ++ "'"
  | stackOverflow limit => "maximum call depth exceeded (limit: " ++ toString limit ++ ")"

structure Fault where
  cause : Fault.Cause
  span : Option Span

namespace Fault

/-- Puts the fault at a span, wherever it was. -/
def placedAt (fault : Fault) (span : Span) : Fault :=
  { fault with span := some span }

/-- Puts the fault at a span, unless it has one already. -/
def orPlacedAt (fault : Fault) (span : Span) : Fault :=
  { fault with span := some (fault.span.getD span) }

end Fault
end PixelScript
