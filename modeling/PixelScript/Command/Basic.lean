import PixelScript.Machine.Limits
import PixelScript.Token.Scan

/-! Commands as the arguments of the command line give them. -/
namespace PixelScript

/-- How a script is run from the command line. -/
structure RunOptions where
  limits : Limits := {}
  quiet : Bool := false

/-- Where a command that runs a script takes it from. -/
inductive Runner where
  | file
  | text
deriving DecidableEq

def Runner.usage : Runner → String
  | .file => "kiln run <file.kn> [--max-depth=N] [--max-canvas-side=N] [--quiet]"
  | .text => "kiln eval '<source>' [--max-depth=N] [--max-canvas-side=N] [--quiet]"

def Runner.missing : Runner → String
  | .file => "missing file path"
  | .text => "missing source text"

inductive Command where
  | help
  | version
  | runFile (options : RunOptions) (path : String)
  | runText (options : RunOptions) (source : String)
  | listTokens (path : String)
  | outlineTree (path : String)
  /-- Arguments that a command does not take. -/
  | misuse (message usage : String)
  /-- A command without the file that it needs. -/
  | fileNeeded (usage : String)
  | unknown (name : String)

namespace Command

/-- A count that fits a machine word: decimal digits, after an optional plus sign. -/
def count? (text : String) : Option Nat :=
  let digits := match text.toList with
    | '+' :: rest => rest
    | chars => chars
  if digits.isEmpty ∨ ¬ digits.all Char.isDigit then none
  else
    let value := Scan.digitsValue digits
    if value < Nat.pow 2 64 then some value else none

/-- What follows a beginning of a text, if the text begins so. -/
def after? (beginning text : String) : Option String :=
  if beginning.toList.isPrefixOf text.toList then
    some (String.ofList (text.toList.drop beginning.length))
  else none

/-- Options and the one argument that is no option. -/
def readOptions (options : RunOptions) (found : Option String) :
    List String → Except String (RunOptions × Option String)
  | [] => .ok (options, found)
  | arg :: args =>
    match after? "--max-depth=" arg with
    | some text =>
      match count? text with
      | some depth =>
        let limits := { options.limits with maxCallDepth := depth }
        readOptions { options with limits } found args
      | none => .error ("invalid --max-depth value '" ++ text ++ "'")
    | none =>
      match after? "--max-canvas-side=" arg with
      | some text =>
        match count? text with
        | some side =>
          let limits := { options.limits with maxCanvasSide := some side }
          readOptions { options with limits } found args
        | none => .error ("invalid --max-canvas-side value '" ++ text ++ "'")
      | none =>
        if arg = "--quiet" ∨ arg = "-q" then readOptions { options with quiet := true } found args
        else if (after? "--" arg).isSome then .error ("unknown option '" ++ arg ++ "'")
        else if found.isSome then .error ("unexpected argument '" ++ arg ++ "'")
        else readOptions options (some arg) args

/-- A run of a file or a text, by the arguments behind the command's name. -/
def ofRunner (runner : Runner) (args : List String) : Command :=
  match readOptions {} none args with
  | .error message => misuse message runner.usage
  | .ok (_, none) => misuse runner.missing runner.usage
  | .ok (options, some argument) =>
    match runner with
    | .file => runFile options argument
    | .text => runText options argument

/-- The last named part of a path. -/
def fileName? (path : String) : Option (List Char) :=
  let parts := (path.toList.splitBy fun c d => c ≠ '/' ∧ d ≠ '/').filter fun part =>
    part.head? ≠ some '/' ∧ part ≠ ['.']
  match parts.getLast? with
  | some ['.', '.'] => none
  | last => last

/-- The part of a file name behind its last dot. A dot at the front starts no
extension. -/
def extension? (path : String) : Option (List Char) := do
  let reversed := (← fileName? path).reverse
  let behind := reversed.takeWhile (· ≠ '.')
  if behind.length + 1 < reversed.length then return behind.reverse else none

/-- Whether a path names a script, by its extension in any case. -/
def isScriptPath (path : String) : Bool :=
  match extension? path with
  | some extension => extension.map Char.toLower == ['k', 'n']
  | none => false

/-- The command that arguments give. A path to a script stands for running it. -/
def ofArgs : List String → Command
  | [] => help
  | name :: args =>
    if name = "run" then ofRunner .file args
    else if name = "eval" then ofRunner .text args
    else if name = "lex" then
      match args with
      | path :: _ => listTokens path
      | [] => fileNeeded "kiln lex <file.kn>"
    else if name = "parse" then
      match args with
      | path :: _ => outlineTree path
      | [] => fileNeeded "kiln parse <file.kn>"
    else if name = "help" ∨ name = "--help" ∨ name = "-h" then help
    else if name = "version" ∨ name = "--version" ∨ name = "-v" then version
    else if isScriptPath name then runFile {} name
    else unknown name

/-- The file that a command reads. -/
def path? : Command → Option String
  | runFile _ path | listTokens path | outlineTree path => some path
  | _ => none

end Command
end PixelScript
