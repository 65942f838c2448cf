import PixelScript.Syntax.Lookahead
import PixelScript.Token.Scan

/-! Malformed sources: a text that is no token, or a token in the wrong place. -/
namespace PixelScript

/-- A failed expectation: what was needed, and the tokens that remained. -/
structure Unexpected where
  expected : String
  rest : List Token

inductive SyntaxError where
  | lexical (error : LexicalError)
  | unexpectedToken (expected found : String) (span : Span)

namespace SyntaxError

def ofUnexpected (failure : Unexpected) : SyntaxError :=
  let token := Lookahead.current failure.rest
  unexpectedToken failure.expected token.kind.description token.span

def span : SyntaxError → Span
  | lexical error => error.span
  | unexpectedToken _ _ span => span

def message : SyntaxError → String
  | lexical error => error.message
  | unexpectedToken expected found _ => "expected " ++ expected ++ ", found " ++ found

end SyntaxError
end PixelScript
