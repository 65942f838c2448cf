import PixelScript.Command.Report

/-! The executable: reads the file that a command names, and writes its report. -/
namespace PixelScript.Command

/-- The content of a file; one that cannot be opened counts as absent. -/
def readContent (path : String) : IO FileContent := do
  try
    let bytes ← IO.FS.readBinFile path
    match String.fromUTF8? bytes with
    | some text => return .text text
    | none => return .notText
  catch _ => return .absent

end PixelScript.Command

def main (args : List String) : IO UInt32 := do
  let command := PixelScript.Command.ofArgs args
  let content ← match command.path? with
    | some path => PixelScript.Command.readContent path
    | none => pure .absent
  let report := command.report content
  let stdout ← IO.getStdout
  let stderr ← IO.getStderr
  stdout.putStr report.output
  stderr.putStr report.errors
  return report.code.toUInt32
