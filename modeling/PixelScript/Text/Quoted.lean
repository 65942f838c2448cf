import PixelScript.Text.Unprintable

/-! Quoted text for messages and dumps. A quotation shows every character on one
line: the mark in use and the backslash get a backslash, four controls have letters of
their own, and what has no shape of its own is written by its number. -/
namespace PixelScript.Text

/-- A code point in lowercase hexadecimal between braces. -/
def numbered (c : Char) : List Char :=
  ['\\', 'u', '\x7b'] ++ Nat.toDigits 16 c.toNat ++ ['\x7d']

/-- One character inside quotation marks `mark`. -/
def escape (mark c : Char) : List Char :=
  if c = '\x00' then ['\\', '0']
  else if c = '\t' then ['\\', 't']
  else if c = '\r' then ['\\', 'r']
  else if c = '\n' then ['\\', 'n']
  else if c = '\\' ∨ c = mark then ['\\', c]
  else if ' ' ≤ c ∧ c ≤ '~' then [c]
  else if isUnprintable c then numbered c
  else [c]

def quoteWith (mark : Char) (text : List Char) : List Char :=
  mark :: text.flatMap (escape mark) ++ [mark]

/-- A text between double quotation marks. -/
def quote (text : String) : String :=
  String.ofList (quoteWith '"' text.toList)

/-- A character between single quotation marks. -/
def quoteChar (c : Char) : String :=
  String.ofList (quoteWith '\'' [c])

end PixelScript.Text
