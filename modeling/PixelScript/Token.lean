import PixelScript.Decimal.Format
import PixelScript.Source.Span
import PixelScript.Text.Quoted

/-! Tokens. Operator punctuation has no tokens of its own: `+` and the word `plus`
are the same identifier, so a program knows operators by one set of names. Newlines
are tokens because they separate statements. -/
namespace PixelScript

inductive Keyword where
  | letWord | ifWord | elseWord | trueWord | falseWord | nullWord | forWord | inWord
deriving DecidableEq

def Keyword.all : List Keyword :=
  [.letWord, .ifWord, .elseWord, .trueWord, .falseWord, .nullWord, .forWord, .inWord]

def Keyword.text : Keyword → String
  | .letWord => "let"
  | .ifWord => "if"
  | .elseWord => "else"
  | .trueWord => "true"
  | .falseWord => "false"
  | .nullWord => "null"
  | .forWord => "for"
  | .inWord => "in"

def Keyword.ofText? (text : String) : Option Keyword :=
  Keyword.all.find? (·.text == text)

inductive Punctuation where
  | leftParen | rightParen | leftBrace | rightBrace | comma | assign | arrow | dot
deriving DecidableEq

def Punctuation.all : List Punctuation :=
  [.leftParen, .rightParen, .leftBrace, .rightBrace, .comma, .assign, .arrow, .dot]

def Punctuation.text : Punctuation → String
  | .leftParen => "("
  | .rightParen => ")"
  | .leftBrace => "\x7b"
  | .rightBrace => "\x7d"
  | .comma => ","
  | .assign => "="
  | .arrow => "=>"
  | .dot => "."

/-- What the grammar distinguishes: a token without its payload. -/
inductive TokenClass where
  | number
  | string
  | identifier
  | keyword (word : Keyword)
  | punctuation (mark : Punctuation)
  | newline
  | endOfInput
deriving DecidableEq

namespace TokenClass

def all : List TokenClass :=
  [number, string, identifier, newline, endOfInput] ++ Keyword.all.map keyword ++
    Punctuation.all.map punctuation

def name : TokenClass → String
  | number => "number"
  | string => "string"
  | identifier => "identifier"
  | keyword word => word.text
  | punctuation mark => mark.text
  | newline => "newline"
  | endOfInput => "end of input"

def ofName? (name : String) : Option TokenClass :=
  all.find? (·.name == name)

end TokenClass

/-- Names that stand between two operands as operators. -/
def operatorNames : List String :=
  ["plus", "minus", "times", "dividedBy", "equals", "lessThan", "lessThanOrEqual",
    "greaterThan", "greaterThanOrEqual", "and", "or", "rangeExclusive", "rangeInclusive"]

def isOperatorName (name : String) : Bool :=
  operatorNames.contains name

inductive TokenKind where
  | number (value : Float)
  | string (text : String)
  | identifier (name : String)
  | keyword (word : Keyword)
  | punctuation (mark : Punctuation)
  | newline
  | endOfInput

namespace TokenKind

def toClass : TokenKind → TokenClass
  | number _ => .number
  | string _ => .string
  | identifier _ => .identifier
  | keyword word => .keyword word
  | punctuation mark => .punctuation mark
  | newline => .newline
  | endOfInput => .endOfInput

/-- The operator that an identifier names, if it names one. -/
def operator? : TokenKind → Option String
  | identifier name => if isOperatorName name then some name else none
  | _ => none

/-- How messages call a token that they found. -/
def description : TokenKind → String
  | number value => "number " ++ Decimal.plain.write value
  | string _ => "string literal"
  | identifier name => "identifier '" ++ name ++ "'"
  | newline => TokenClass.newline.name
  | endOfInput => TokenClass.endOfInput.name
  | kind => "'" ++ kind.toClass.name ++ "'"

/-- The form of a token in listings, with its payload. -/
def listing : TokenKind → String
  | number value => "Number(" ++ Decimal.plain.write value ++ ")"
  | string text => "Str(" ++ Text.quote text ++ ")"
  | identifier name => "Ident(" ++ name ++ ")"
  | kind => kind.toClass.name

end TokenKind

structure Token where
  kind : TokenKind
  span : Span

def Token.listing (token : Token) : String :=
  token.kind.listing ++ " @ " ++ token.span.text

/-- What stands behind the last token of a list. -/
def Token.pastEnd : Token :=
  ⟨.endOfInput, ⟨0, 0⟩⟩

end PixelScript
