import PixelScript.Token

/-! Looking at the tokens that remain, without taking any. Behind the last token
stands the end of input. -/
namespace PixelScript.Lookahead

/-- The token at distance `n`. -/
def tokenAt (n : Nat) (tokens : List Token) : Token :=
  tokens[n]?.getD Token.pastEnd

def current (tokens : List Token) : Token :=
  tokenAt 0 tokens

def currentClass (tokens : List Token) : TokenClass :=
  (current tokens).kind.toClass

def isNewline (token : Token) : Bool :=
  token.kind.toClass == .newline

/-- Parameter names separated by commas, then `)` and `=>`. -/
def isParameterList : List Token → Bool
  | ⟨.identifier _, _⟩ :: ⟨.punctuation .comma, _⟩ :: rest => isParameterList rest
  | ⟨.identifier _, _⟩ :: ⟨.punctuation .rightParen, _⟩ :: ⟨.punctuation .arrow, _⟩ :: _ => true
  | _ => false

/-- Whether the tokens behind the current one, which is taken for `(`, are the
parameters of a function and the arrow before its body. -/
def isFunctionHead : List Token → Bool
  | _ :: ⟨.punctuation .rightParen, _⟩ :: ⟨.punctuation .arrow, _⟩ :: _ => true
  | _ :: rest => isParameterList rest
  | [] => false

end PixelScript.Lookahead
