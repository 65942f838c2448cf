import PixelScript.Syntax.Error
import PixelScript.Syntax.Tree

/-! The grammar, by recursive descent over the remaining tokens.

    program   = { stmt }
    stmt      = "let" IDENT "=" expr | IDENT "=" expr | "for" IDENT "in" expr block | expr
    expr      = call { OPERATOR call }
    call      = primary { "(" args ")" | "." IDENT "(" args ")" } [ block ]
    primary   = NUMBER | STRING | "true" | "false" | "null" | IDENT
              | function | "(" expr ")" | block | if
    function  = "(" [ IDENT { "," IDENT } ] ")" "=>" ( block | expr )
    if        = "if" expr branch [ "else" ( if | branch ) ]

All operators share one tier and associate to the left. A block behind a call is the
call's last argument, except in a condition or an iterable outside of all brackets,
where the brace belongs to the enclosing construct: the flag `trailing` says which.
Every function counts down a number that the token count bounds, so it never runs out
on the tokens of a program. -/
namespace PixelScript

abbrev Parser := StateT (List Token) (Except Unexpected)

namespace Grammar

def unexpected {α : Type} (expected : String) : Parser α :=
  fun tokens => .error ⟨expected, tokens⟩

def peek : Parser TokenClass :=
  fun tokens => .ok (Lookahead.currentClass tokens, tokens)

def advance : Parser Unit :=
  fun tokens => .ok ((), tokens.tail)

def skipNewlines : Parser Unit :=
  fun tokens => .ok ((), tokens.dropWhile Lookahead.isNewline)

/-- Takes a token of the given class and gives its span. -/
def expect (expected : TokenClass) : Parser Span :=
  fun tokens => match tokens with
    | token :: rest =>
      if token.kind.toClass = expected then .ok (token.span, rest)
      else .error ⟨expected.name, tokens⟩
    | [] => .error ⟨expected.name, []⟩

def expectIdentifier : Parser String :=
  fun tokens => match tokens with
    | ⟨.identifier name, _⟩ :: rest => .ok (name, rest)
    | _ => .error ⟨TokenClass.identifier.name, tokens⟩

/-- Takes `else`, also from a later line; without one, takes nothing. -/
def takeElse : Parser Bool :=
  fun tokens => match tokens.dropWhile Lookahead.isNewline with
    | ⟨.keyword .elseWord, _⟩ :: rest => .ok (true, rest)
    | _ => .ok (false, tokens)

/-- Parameter names up to a closing parenthesis, which stays. -/
def parameters : Parser (List String)
  | ⟨.identifier name, _⟩ :: ⟨.punctuation .comma, _⟩ :: rest => do
    let (names, rest) ← parameters rest
    return (name :: names, rest)
  | ⟨.identifier name, _⟩ :: rest => do
    let (names, rest) ← parameters rest
    return (name :: names, rest)
  | ⟨.punctuation .rightParen, span⟩ :: rest => .ok ([], ⟨.punctuation .rightParen, span⟩ :: rest)
  | tokens => .error ⟨TokenClass.identifier.name, tokens⟩

mutual

/-- `call { OPERATOR call }` -/
def expression (fuel : Nat) (trailing : Bool) : Parser Expr :=
  match fuel with
  | 0 => unexpected "expression"
  | fuel + 1 => do
    let first ← call fuel trailing
    operations fuel trailing first

/-- The operators and operands that follow `left`. -/
def operations (fuel : Nat) (trailing : Bool) (left : Expr) : Parser Expr :=
  match fuel with
  | 0 => unexpected "expression"
  | fuel + 1 => do
    match (Lookahead.current (← get)).kind.operator? with
    | some operator =>
      advance
      let right ← call fuel trailing
      operations fuel trailing (.operation operator left right (left.span.merge right.span))
    | none => return left

/-- A primary with its argument lists, and a block where one may follow. -/
def call (fuel : Nat) (trailing : Bool) : Parser Expr :=
  match fuel with
  | 0 => unexpected "expression"
  | fuel + 1 => do
    let first ← primary fuel trailing
    callSuffixes fuel trailing first

def callSuffixes (fuel : Nat) (trailing : Bool) (value : Expr) : Parser Expr :=
  match fuel with
  | 0 => unexpected "expression"
  | fuel + 1 => do
    match ← peek with
    | .punctuation .leftParen =>
      let (args, close) ← arguments fuel
      callSuffixes fuel trailing (.call value args (value.span.merge close))
    | .punctuation .dot =>
      advance
      let method ← expectIdentifier
      let (args, close) ← arguments fuel
      callSuffixes fuel trailing (.methodCall value method args (value.span.merge close))
    | .punctuation .leftBrace =>
      if value.isCall && trailing then
        let body ← block fuel true
        return value.withTrailingBlock body
      else return value
    | _ => return value

/-- A parenthesised argument list, with the span of its closing parenthesis. -/
def arguments (fuel : Nat) : Parser (List Expr × Span) :=
  match fuel with
  | 0 => unexpected "expression"
  | fuel + 1 => do
    let _ ← expect (.punctuation .leftParen)
    skipNewlines
    argumentsTail fuel

/-- Arguments up to and with the closing parenthesis; a comma may follow the last. -/
def argumentsTail (fuel : Nat) : Parser (List Expr × Span) :=
  match fuel with
  | 0 => unexpected "expression"
  | fuel + 1 => do
    if (← peek) = .punctuation .rightParen then
      let close ← expect (.punctuation .rightParen)
      return ([], close)
    else
      let first ← expression fuel true
      skipNewlines
      if (← peek) = .punctuation .comma then
        advance
        skipNewlines
        let (more, close) ← argumentsTail fuel
        return (first :: more, close)
      else
        let close ← expect (.punctuation .rightParen)
        return ([first], close)

def primary (fuel : Nat) (trailing : Bool) : Parser Expr :=
  match fuel with
  | 0 => unexpected "expression"
  | fuel + 1 => do
    let tokens ← get
    match tokens with
    | ⟨.number value, span⟩ :: _ => do advance; return .number value span
    | ⟨.string text, span⟩ :: _ => do advance; return .string text span
    | ⟨.keyword .trueWord, span⟩ :: _ => do advance; return .boolean true span
    | ⟨.keyword .falseWord, span⟩ :: _ => do advance; return .boolean false span
    | ⟨.keyword .nullWord, span⟩ :: _ => do advance; return .null span
    | ⟨.identifier name, span⟩ :: _ => do advance; return .identifier name span
    | ⟨.keyword .ifWord, _⟩ :: _ => conditional fuel trailing
    | ⟨.punctuation .leftBrace, _⟩ :: _ => do
      let body ← block fuel false
      return .block body body.span
    | ⟨.punctuation .leftParen, _⟩ :: _ =>
      if Lookahead.isFunctionHead tokens then function fuel trailing else parenthesized fuel
    | _ => unexpected "expression"

/-- `( expr )`; the expression gets the span of the parentheses. -/
def parenthesized (fuel : Nat) : Parser Expr :=
  match fuel with
  | 0 => unexpected "expression"
  | fuel + 1 => do
    let start ← expect (.punctuation .leftParen)
    skipNewlines
    let inner ← expression fuel true
    skipNewlines
    let close ← expect (.punctuation .rightParen)
    return inner.withSpan (start.merge close)

/-- `(a, b) => body`, where the lookahead has found a function head. -/
def function (fuel : Nat) (trailing : Bool) : Parser Expr :=
  match fuel with
  | 0 => unexpected "expression"
  | fuel + 1 => do
    let start ← expect (.punctuation .leftParen)
    let params ← parameters
    let _ ← expect (.punctuation .rightParen)
    let _ ← expect (.punctuation .arrow)
    skipNewlines
    let body ← blockOrExpression fuel trailing true
    return .function params body (start.merge body.span)

/-- A block in braces, or a bare expression in its place. -/
def blockOrExpression (fuel : Nat) (trailing isFunctionBody : Bool) : Parser Block :=
  match fuel with
  | 0 => unexpected "expression"
  | fuel + 1 => do
    if (← peek) = .punctuation .leftBrace then block fuel isFunctionBody
    else
      let value ← expression fuel trailing
      return .ofExpr value isFunctionBody

/-- `if cond branch [else (if ... | branch)]` -/
def conditional (fuel : Nat) (trailing : Bool) : Parser Expr :=
  match fuel with
  | 0 => unexpected "expression"
  | fuel + 1 => do
    let start ← expect (.keyword .ifWord)
    let condition ← expression fuel false
    skipNewlines
    let thenBranch ← blockOrExpression fuel trailing false
    if ← takeElse then
      let elseBranch ← alternative fuel trailing
      return .conditional condition thenBranch (some elseBranch) (start.merge elseBranch.span)
    else
      return .conditional condition thenBranch none (start.merge thenBranch.span)

/-- What follows `else`: another condition, or a branch that may start on a later line. -/
def alternative (fuel : Nat) (trailing : Bool) : Parser Block :=
  match fuel with
  | 0 => unexpected "expression"
  | fuel + 1 => do
    if (← peek) = .keyword .ifWord then
      let nested ← conditional fuel trailing
      return .ofExpr nested false
    else
      skipNewlines
      blockOrExpression fuel trailing false

/-- `{ stmt* }` -/
def block (fuel : Nat) (isFunctionBody : Bool) : Parser Block :=
  match fuel with
  | 0 => unexpected "expression"
  | fuel + 1 => do
    let start ← expect (.punctuation .leftBrace)
    skipNewlines
    let body ← statements fuel true
    let close ← expect (.punctuation .rightBrace)
    return .mk body isFunctionBody (start.merge close)

/-- Statements up to the end of input, or in a block up to its closing brace. -/
def statements (fuel : Nat) (inBlock : Bool) : Parser (List Stmt) :=
  match fuel with
  | 0 => unexpected "expression"
  | fuel + 1 => do
    let next ← peek
    if next = .endOfInput ∨ (inBlock ∧ next = .punctuation .rightBrace) then return []
    else
      let first ← statement fuel
      skipNewlines
      let more ← statements fuel inBlock
      return first :: more

def statement (fuel : Nat) : Parser Stmt :=
  match fuel with
  | 0 => unexpected "expression"
  | fuel + 1 => do
    match ← get with
    | ⟨.keyword .letWord, start⟩ :: _ => do
      advance
      let name ← expectIdentifier
      let _ ← expect (.punctuation .assign)
      let value ← expression fuel true
      return .declare name value (start.merge value.span)
    | ⟨.keyword .forWord, start⟩ :: _ => do
      advance
      let binding ← expectIdentifier
      let _ ← expect (.keyword .inWord)
      let iterable ← expression fuel false
      let body ← block fuel false
      return .forEach binding iterable body (start.merge body.span)
    | ⟨.identifier name, start⟩ :: ⟨.punctuation .assign, _⟩ :: rest => do
      set rest
      let value ← expression fuel true
      return .assign name value (start.merge value.span)
    | _ => do
      let value ← expression fuel true
      return .expr value value.span

end

/-- Steps that suffice for any list of so many tokens: between two tokens the
functions above call each other at most eight deep. -/
def fuelFor (tokens : List Token) : Nat :=
  8 * tokens.length + 8

def program (fuel : Nat) : Parser Program := do
  skipNewlines
  let body ← statements fuel false
  return ⟨body⟩

end Grammar

namespace Program

/-- The program that tokens spell, up to the first end of input. -/
def ofTokens (tokens : List Token) : Except SyntaxError Program :=
  match Grammar.program (Grammar.fuelFor tokens) tokens with
  | .ok (program, _) => .ok program
  | .error failure => .error (.ofUnexpected failure)

def parse (source : String) : Except SyntaxError Program :=
  match Token.scan source with
  | .ok tokens => ofTokens tokens
  | .error error => .error (.lexical error)

end Program
end PixelScript
