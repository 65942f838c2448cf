import PixelScript.Syntax.Error

/-! A place in a list of tokens, for hosts that walk tokens by themselves. It looks
ahead as the grammar does, can return to any place, and never moves behind the last
token by advancing. -/
namespace PixelScript

structure Cursor where
  tokens : List Token
  position : Nat

namespace Cursor

def start (tokens : List Token) : Cursor :=
  ⟨tokens, 0⟩

/-- The tokens from the current one on. -/
def rest (cursor : Cursor) : List Token :=
  cursor.tokens.drop cursor.position

def current (cursor : Cursor) : Token :=
  Lookahead.current cursor.rest

def isAtEnd (cursor : Cursor) : Bool :=
  Lookahead.currentClass cursor.rest == .endOfInput

/-- Whether the current token is of a class, whatever its payload. -/
def check (cursor : Cursor) (expected : TokenClass) : Bool :=
  Lookahead.currentClass cursor.rest == expected

def operator? (cursor : Cursor) : Option String :=
  cursor.current.kind.operator?

def peekKind (cursor : Cursor) (distance : Nat) : TokenKind :=
  (Lookahead.tokenAt distance cursor.rest).kind

def isFunctionHead (cursor : Cursor) : Bool :=
  Lookahead.isFunctionHead cursor.rest

def seek (cursor : Cursor) (position : Nat) : Cursor :=
  { cursor with position }

/-- Takes the current token; the last one is taken without moving. -/
def advance (cursor : Cursor) : Token × Cursor :=
  let next := cursor.position + 1
  (cursor.current, if next < cursor.tokens.length then cursor.seek next else cursor)

def skipNewlines (cursor : Cursor) : Cursor :=
  cursor.seek (cursor.position + (cursor.rest.takeWhile Lookahead.isNewline).length)

def unexpected (cursor : Cursor) (expected : String) : Unexpected :=
  ⟨expected, cursor.rest⟩

def expect (cursor : Cursor) (expected : TokenClass) : Except Unexpected (Token × Cursor) :=
  if cursor.check expected then .ok cursor.advance else .error (cursor.unexpected expected.name)

def expectIdentifier (cursor : Cursor) : Except Unexpected (String × Cursor) :=
  match cursor.advance with
  | (⟨.identifier name, _⟩, next) => .ok (name, next)
  | _ => .error (cursor.unexpected TokenClass.identifier.name)

end Cursor
end PixelScript
