import PixelScript.Token

/-! Scanning: from characters to tokens by longest match. Each reading takes the first
character and a number of those that follow, so nothing is lost between readings.
Blanks and comments give no token, and the first reading that is no token ends the
scan with an error. -/
namespace PixelScript

/-- Why a text has no token at some place. -/
inductive LexicalError.Cause where
  | unterminatedString
  | unrecognizedCharacter (c : Char)

structure LexicalError where
  cause : LexicalError.Cause
  span : Span

def LexicalError.message (error : LexicalError) : String :=
  match error.cause with
  | .unterminatedString => "unterminated string literal"
  | .unrecognizedCharacter c => "unrecognized character " ++ Text.quoteChar c

namespace Scan

/-- What stands at the front of a text. -/
inductive Lexeme where
  | blank
  | token (kind : TokenKind)
  | failure (cause : LexicalError.Cause)

def isBlank (c : Char) : Bool :=
  c == ' ' || c == '\t' || c == '\r'

def isWordStart (c : Char) : Bool :=
  c.isAlpha || c == '_'

def isWordRest (c : Char) : Bool :=
  c.isAlphanum || c == '_'

/-- Spellings of marks and operators, longer ones before their beginnings. -/
def spellings : List (String × TokenKind) :=
  [("...", .identifier "rangeInclusive"), ("..", .identifier "rangeExclusive"),
    (".", .punctuation .dot), ("=>", .punctuation .arrow), ("==", .identifier "equals"),
    ("=", .punctuation .assign), ("<=", .identifier "lessThanOrEqual"),
    ("<", .identifier "lessThan"), (">=", .identifier "greaterThanOrEqual"),
    (">", .identifier "greaterThan"), ("+", .identifier "plus"), ("-", .identifier "minus"),
    ("*", .identifier "times"), ("/", .identifier "dividedBy"), ("(", .punctuation .leftParen),
    (")", .punctuation .rightParen), ("\x7b", .punctuation .leftBrace),
    ("\x7d", .punctuation .rightBrace), (",", .punctuation .comma), ("\n", .newline)]

/-- The number of characters before the quotation mark that closes a string. A
backslash takes the next character with it. -/
def closingQuote? : List Char → Option Nat
  | [] => none
  | ['\\'] => none
  | '\\' :: _ :: cs => (closingQuote? cs).map (· + 2)
  | c :: cs => if c = '"' then some 0 else (closingQuote? cs).map (· + 1)

/-- The text that the inside of a string literal stands for: `\n` and `\t` are the
newline and the tab, and any other character after a backslash is itself. -/
def unescape : List Char → List Char
  | [] => []
  | ['\\'] => []
  | '\\' :: c :: cs =>
    (if c = 'n' then '\n' else if c = 't' then '\t' else c) :: unescape cs
  | c :: cs => c :: unescape cs

/-- The digits after a decimal point, if the text goes on with such a point. -/
def fractionDigits : List Char → List Char
  | '.' :: cs => cs.takeWhile Char.isDigit
  | _ => []

def digitsValue (digits : List Char) : Nat :=
  digits.foldl (fun value c => 10 * value + (c.toNat - '0'.toNat)) 0

/-- A number literal whose first digit is `c`. -/
def readNumber (c : Char) (cs : List Char) : Lexeme × Nat :=
  let whole := cs.takeWhile Char.isDigit
  let fraction := fractionDigits (cs.drop whole.length)
  let value := Float.ofScientific (digitsValue (c :: whole ++ fraction)) true fraction.length
  (.token (.number value),
    whole.length + if fraction.isEmpty then 0 else fraction.length + 1)

def readWord (c : Char) (cs : List Char) : Lexeme × Nat :=
  let rest := cs.takeWhile isWordRest
  let word := String.ofList (c :: rest)
  let kind := match Keyword.ofText? word with
    | some keyword => .keyword keyword
    | none => .identifier word
  (.token kind, rest.length)

/-- A string literal whose opening quotation mark has been read. -/
def readString (cs : List Char) : Lexeme × Nat :=
  match closingQuote? cs with
  | some length => (.token (.string (String.ofList (unescape (cs.take length)))), length + 1)
  | none => (.failure .unterminatedString, cs.length)

def readMark (c : Char) (cs : List Char) : Lexeme × Nat :=
  match spellings.find? fun (spelling, _) => spelling.toList.isPrefixOf (c :: cs) with
  | some (spelling, kind) => (.token kind, spelling.length - 1)
  | none => (.failure (.unrecognizedCharacter c), 0)

/-- The lexeme at the front of `c :: cs`, and how many characters of `cs` it takes. -/
def read (c : Char) (cs : List Char) : Lexeme × Nat :=
  if isBlank c then (.blank, (cs.takeWhile isBlank).length)
  else if c = '/' ∧ cs.head? = some '/' then (.blank, (cs.takeWhile (· ≠ '\n')).length)
  else if c.isDigit then readNumber c cs
  else if isWordStart c then readWord c cs
  else if c = '"' then readString cs
  else readMark c cs

/-- Tokens of a text that starts at byte `offset` of its source. -/
def tokensFrom (offset : Nat) : List Char → Except LexicalError (List Token)
  | [] => .ok [⟨.endOfInput, Span.ofRange offset offset⟩]
  | c :: cs =>
    let (lexeme, taken) := read c cs
    let stop := offset + Text.byteLength (c :: cs.take taken)
    match lexeme with
    | .blank => tokensFrom stop (cs.drop taken)
    | .token kind => do
      let later ← tokensFrom stop (cs.drop taken)
      return ⟨kind, Span.ofRange offset stop⟩ :: later
    | .failure cause => .error ⟨cause, Span.ofRange offset stop⟩
termination_by text => text.length
decreasing_by all_goals simp only [List.length_drop, List.length_cons]; omega

end Scan

/-- The tokens of a source text, the last of which is the end of input. -/
def Token.scan (source : String) : Except LexicalError (List Token) :=
  Scan.tokensFrom 0 source.toList

end PixelScript
