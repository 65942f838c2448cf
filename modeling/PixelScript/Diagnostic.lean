import PixelScript.Evaluation.Fault
import PixelScript.Source.Position
import PixelScript.Syntax.Error

/-! Errors as people see them: a message, the place in the source, and the line with
carets under the part that is meant. -/
namespace PixelScript

/-- Why a script gave no value: it is malformed, or it failed while running. -/
inductive ScriptError where
  | malformed (error : SyntaxError)
  | failed (fault : Fault)

namespace ScriptError

def span? : ScriptError → Option Span
  | malformed error => some error.span
  | failed fault => fault.span

def message : ScriptError → String
  | malformed error => error.message
  | failed fault => fault.cause.message

def isMalformed : ScriptError → Bool
  | malformed _ => true
  | failed _ => false

/-- One line for hosts; only a malformed script names its place there. -/
def summary : ScriptError → String
  | malformed error => "syntax error: " ++ error.message ++ " at " ++ error.span.text
  | failed fault => "runtime error: " ++ fault.cause.message

end ScriptError

namespace Diagnostic

/-- A line of the source, counted from one, without carriage returns at its end. -/
def lineText (source : List Char) (line : Nat) : List Char :=
  let text := (Text.lines source)[line - 1]?.getD []
  (text.reverse.dropWhile (· = '\r')).reverse

/-- Characters of the first line that a span covers. -/
def coveredWidth (source : List Char) (span : Span) : Nat :=
  match span.slice? source with
  | some part => (part.takeWhile (· ≠ '\n')).length
  | none => 0

/-- Carets under a span that starts in column `column` of the line `text`: at least
one, and none past the end of the line but that one. -/
def caretWidth (source : List Char) (span : Span) (column : Nat) (text : List Char) : Nat :=
  max 1 (min (coveredWidth source span) (text.length - (column - 1)))

def repeated (c : Char) (count : Nat) : String :=
  String.ofList (List.replicate count c)

/-- The place, the line and the carets. -/
def snippet (source : List Char) (path : String) (span : Span) : String :=
  let position := Position.ofOffset source span.start
  let text := lineText source position.line
  let number := toString position.line
  let margin := repeated ' ' number.length
  let carets := caretWidth source span position.column text
  margin ++ "--> " ++ path ++ ":" ++ number ++ ":" ++ toString position.column ++ "\n" ++
    margin ++ " |\n" ++
    number ++ " | " ++ String.ofList text ++ "\n" ++
    margin ++ " | " ++ repeated ' ' (position.column - 1) ++ repeated '^' carets ++ "\n"

end Diagnostic

/-- The report of an error in a source that is known under a path. -/
def ScriptError.render (error : ScriptError) (source path : String) : String :=
  "error: " ++ error.message ++ "\n" ++
    match error.span? with
    | some span => Diagnostic.snippet source.toList path span
    | none => " --> " ++ path ++ "\n"

end PixelScript
