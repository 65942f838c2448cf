import PixelScript.Command.Basic
import PixelScript.Session.Basic
import PixelScript.Syntax.Outline

/-! What commands write. A command names the file that it needs, and its report comes
from the content of that file, so nothing here reads or prints. -/
namespace PixelScript.Command

/-- What stands in a file. -/
inductive FileContent where
  | text (content : String)
  | absent
  | notText

/-- What a command writes to its two outputs, and how it exits. -/
structure Report where
  output : String := ""
  errors : String := ""
  code : Nat := 0

def usageLines : List String :=
  ["Kiln, a small expression language",
    "",
    "Usage: kiln <command> [options]",
    "",
    "Commands:",
    "  run <file.kn>        Evaluate a file and print its value",
    "  eval '<source>'      Evaluate source given on the command line",
    "  lex <file.kn>        Tokenize and display tokens",
    "  parse <file.kn>      Parse and display the syntax tree",
    "  help                 Show this help message",
    "  version              Show version information",
    "",
    "Run options:",
    "  --max-depth=<n>          Maximum function call depth (default: 10000)",
    "  --max-canvas-side=<n>    Largest side canvas() accepts (default: no limit)",
    "  --quiet                  Discard output from print()",
    "",
    "Set RUST_LOG (e.g. RUST_LOG=kiln_eval=debug) to enable tracing."]

def usage : String :=
  String.join (usageLines.map (· ++ "\n"))

/-- Runs a source in a fresh runtime and reports its value, unless it is null. -/
def reportRun (options : RunOptions) (path source : String) : Report :=
  let machine := Machine.fresh options.quiet
  let (answer, machine) :=
    (HostAction.run source).perform options.limits Machine.globalScope [] machine
  let printed := machine.console.text
  match answer with
  | .value .null => { output := printed }
  | .value value => { output := printed ++ machine.display value ++ "\n" }
  | .error error => { output := printed, errors := error.render source path, code := 1 }
  | _ => { output := printed, code := 1 }

def reportTokens (path source : String) : Report :=
  match Token.scan source with
  | .ok tokens => { output := String.join (tokens.map fun token => token.listing ++ "\n") }
  | .error error =>
    { errors := (ScriptError.malformed (.lexical error)).render source path, code := 1 }

def reportTree (path source : String) : Report :=
  match Program.parse source with
  | .ok program => { output := program.outline.render 0 ++ "\n" }
  | .error error => { errors := (ScriptError.malformed error).render source path, code := 1 }

/-- Reports on the text of a file, or on why there is none. -/
def reportFile (path : String) (content : FileContent) (onText : String → Report) : Report :=
  match content with
  | .text source => onText source
  | .absent => { errors := "cannot find file '" ++ path ++ "'\n", code := 1 }
  | .notText => { errors := "'" ++ path ++ "' contains invalid UTF-8 data\n", code := 1 }

/-- The report of a command, given the content of the file that it names. -/
def report (content : FileContent) : Command → Report
  | help => { output := usage }
  | version => { output := "Kiln 0.1.0\n" }
  | runFile options path => reportFile path content (reportRun options path)
  | runText options source => reportRun options "<eval>" source
  | listTokens path => reportFile path content (reportTokens path)
  | outlineTree path => reportFile path content (reportTree path)
  | misuse message usage =>
    { errors := "error: " ++ message ++ "\nUsage: " ++ usage ++ "\n", code := 1 }
  | fileNeeded usage => { errors := "Usage: " ++ usage ++ "\n", code := 1 }
  | unknown name => { output := usage, errors := "Unknown command: " ++ name ++ "\n\n", code := 1 }

end PixelScript.Command
