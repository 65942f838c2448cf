import PixelScript.Proofs.Syntax.Completeness
import PixelScript.Proofs.Syntax.Respan
import PixelScript.Proofs.Syntax.Shape
import PixelScript.Proofs.Syntax.Standalone

/-! Writing trees. Every tree of the parser's form has tokens that spell it, up to spans:
operands in parentheses, branches and bodies in braces, and a newline behind every
statement, so that nothing that follows is taken for more of what is written. Each
block behind a call gets parentheses around what it stands behind. -/
namespace PixelScript

/-- A token that is nowhere in a text. -/
def Token.unplaced (kind : TokenKind) : Token :=
  ⟨kind, .point 0⟩

namespace Writing

def mark (mark : Punctuation) : Token :=
  .unplaced (.punctuation mark)

def word (word : Keyword) : Token :=
  .unplaced (.keyword word)

def name (name : String) : Token :=
  .unplaced (.identifier name)

def parenthesized (tokens : List Token) : List Token :=
  mark .leftParen :: (tokens ++ [mark .rightParen])

/-- Parameters with commas between them and the parenthesis that closes them. -/
def parameters : List String → List Token
  | [] => []
  | [param] => [name param]
  | param :: more => name param :: mark .comma :: parameters more

end Writing

open Writing

mutual

/-- Tokens of an expression that nothing behind them can make longer. -/
def Expr.write : Expr → List Token
  | .number value _ => [.unplaced (.number value)]
  | .string text _ => [.unplaced (.string text)]
  | .boolean value _ => [word (if value then .trueWord else .falseWord)]
  | .null _ => [word .nullWord]
  | .identifier text _ => [name text]
  | .function params body _ => parenthesized (mark .leftParen ::
      (parameters params ++ mark .rightParen :: mark .arrow :: body.write))
  | .call callee args _ => parenthesized (Expr.writeBlocks
      (callee.write ++ mark .leftParen :: Expr.writeArguments args) args)
  | .methodCall receiver method args _ => parenthesized (Expr.writeBlocks
      (receiver.write ++ mark .dot :: name method :: mark .leftParen ::
        Expr.writeArguments args) args)
  | .block body _ | .trailingBlock body _ => body.write
  | .conditional condition thenBranch none _ =>
    parenthesized (word .ifWord :: (condition.write ++ thenBranch.write))
  | .conditional condition thenBranch (some elseBranch) _ =>
    parenthesized (word .ifWord :: (condition.write ++
      (thenBranch.write ++ word .elseWord :: elseBranch.write)))
  | .operation operator left right _ =>
    parenthesized (left.write ++ name operator :: right.write)

/-- The arguments between the parentheses of a call, each before a comma. -/
def Expr.writeArguments : List Expr → List Token
  | [] => [mark .rightParen]
  | first :: more =>
    if first.isTrailingBlock then Expr.writeArguments more
    else first.write ++ mark .comma :: Expr.writeArguments more

/-- The blocks behind a call. -/
def Expr.writeBlocks (call : List Token) : List Expr → List Token
  | [] => call
  | first :: more =>
    if first.isTrailingBlock then Expr.writeBlocks (parenthesized call ++ first.write) more
    else Expr.writeBlocks call more

def Stmt.write : Stmt → List Token
  | .declare text value _ => word .letWord :: name text :: mark .assign :: value.write
  | .assign text value _ => name text :: mark .assign :: value.write
  | .forEach binding iterable body _ =>
    word .forWord :: name binding :: word .inWord :: (iterable.write ++ body.write)
  | .expr value _ => value.write

def Stmt.writeLines : List Stmt → List Token
  | [] => []
  | first :: more => first.write ++ .unplaced .newline :: Stmt.writeLines more

def Block.write : Block → List Token
  | .mk statements _ _ => mark .leftBrace :: (Stmt.writeLines statements ++ [mark .rightBrace])

end

/-- The tree with every span made the same. -/
def Expr.eraseSpans : Expr → Expr :=
  Expr.mapSpan fun _ => .point 0

def Stmt.eraseSpans : Stmt → Stmt :=
  Stmt.mapSpan fun _ => .point 0

def Block.eraseSpans : Block → Block :=
  Block.mapSpan fun _ => .point 0

def Program.eraseSpans : Program → Program :=
  Program.mapSpan fun _ => .point 0

/-- An expression is written as a name alone or starts with another token than a name. -/
theorem Expr.write_first {value : Expr} (shaped : value.isShaped false = true) :
    (∃ text, value.write = [name text]) ∨
      ∃ token more, value.write = token :: more ∧ token.kind.toClass ≠ .identifier ∧
        token.kind.toClass ≠ .punctuation .rightParen := by
  cases value with
  | identifier text => exact .inl ⟨text, by rw [write]⟩
  | conditional condition thenBranch elseBranch =>
    cases elseBranch <;> exact .inr ⟨mark .leftParen, _, by rw [write]; rfl, nofun, nofun⟩
  | trailingBlock => simp [isShaped] at shaped
  | block body =>
    cases body
    exact .inr ⟨mark .leftBrace, _, by rw [write, Block.write], nofun, nofun⟩
  | number value => exact .inr ⟨.unplaced (.number value), _, by rw [write], nofun, nofun⟩
  | string text => exact .inr ⟨.unplaced (.string text), _, by rw [write], nofun, nofun⟩
  | boolean value => exact .inr ⟨word _, _, by rw [write], nofun, nofun⟩
  | null => exact .inr ⟨word _, _, by rw [write], nofun, nofun⟩
  | function | call | methodCall | operation =>
    exact .inr ⟨mark .leftParen, _, by rw [write]; rfl, nofun, nofun⟩

namespace Lookahead

/-- A parenthesis before other than a name or its own end opens no parameters. -/
theorem isFunctionHead_of_first {token : Token} (named : token.kind.toClass ≠ .identifier)
    (closed : token.kind.toClass ≠ .punctuation .rightParen) :
    isFunctionHead (start :: token :: more) = false := by
  refine Bool.eq_false_iff.mpr fun found => ?_
  obtain ⟨_, params, p, close, arrow, rest, parameters, same⟩ := isFunctionHead_iff.mp found
  obtain ⟨_, same⟩ := List.cons.inj same
  cases parameters with
  | none => exact closed (congrArg _ (congrArg Token.kind (List.cons.inj same).1))
  | some names =>
    cases names <;> exact named (congrArg _ (congrArg Token.kind (List.cons.inj same).1))

/-- A name in parentheses is a parameter only before a comma or the end of them. -/
theorem isFunctionHead_of_second {token : Token} (comma : token.kind.toClass ≠ .punctuation .comma)
    (closed : token.kind.toClass ≠ .punctuation .rightParen) :
    isFunctionHead (start :: name text :: token :: more) = false := by
  refine Bool.eq_false_iff.mpr fun found => ?_
  obtain ⟨_, params, p, close, arrow, rest, parameters, same⟩ := isFunctionHead_iff.mp found
  obtain ⟨_, same⟩ := List.cons.inj same
  cases parameters with
  | none => cases same
  | some names =>
    cases names with
    | one =>
      have second := (List.cons.inj (List.cons.inj same).2).1
      exact closed (congrArg _ (congrArg Token.kind second))
    | more =>
      have second := (List.cons.inj (List.cons.inj same).2).1
      exact comma (congrArg _ (congrArg Token.kind second))

end Lookahead

namespace Spells

/-- An operand before what is no suffix and no operator is an expression. -/
theorem expression_of_primary (inner : Spells (.primary trailing value) s rest)
    (suffixes : Lookahead.endsSuffixes trailing value rest = true)
    (operators : (Lookahead.current rest).kind.operator? = none) :
    Spells (.expression trailing value) s rest := by
  have whole := Spells.expression (t := []) (.call (t := []) inner (.suffixesEnd suffixes))
    (.operationsEnd operators)
  simpa only [List.append_nil] using whole

theorem call_of_primary (inner : Spells (.primary trailing value) s rest)
    (suffixes : Lookahead.endsSuffixes trailing value rest = true) :
    Spells (.call trailing value) s rest := by
  simpa only [List.append_nil] using Spells.call (t := []) inner (.suffixesEnd suffixes)

end Spells

/-- Tokens that are an operand, whatever follows. -/
def Operand (value : Expr) (tokens : List Token) : Prop :=
  ∀ trailing rest, Spells (.primary trailing value) tokens rest

/-- Tokens of an expression in parentheses, where they are not taken for parameters. -/
def Enclosable (value : Expr) (tokens : List Token) : Prop :=
  ∀ more,
    Lookahead.isFunctionHead (mark .leftParen :: (tokens ++ mark .rightParen :: more)) = false ∧
      Spells (.expression true value) tokens (mark .rightParen :: more)

theorem Expr.withSpan_span (value : Expr) : value.withSpan value.span = value := by
  cases value <;> rfl

theorem Enclosable.operand (inner : Enclosable value tokens) (placed : value.span = .point 0) :
    Operand value (parenthesized tokens) := by
  intro trailing rest
  obtain ⟨plain, spelled⟩ := inner rest
  have whole : Spells (.parenthesized (value.withSpan ((Span.point 0).merge (.point 0))))
      (parenthesized tokens) rest := .parenthesized (n := []) (m := []) .nil spelled .nil
  have same : value.withSpan ((Span.point 0).merge (.point 0)) = value := by
    conv => rhs; rw [← value.withSpan_span, placed]
    rfl
  rw [same] at whole
  refine .primaryParenthesized whole ?_
  simpa [parenthesized] using plain

/-- An expression is not taken for parameters if it goes on behind its first operand. -/
theorem Expr.write_opens {value : Expr} {token : Token} (shaped : value.isShaped false = true)
    (comma : token.kind.toClass ≠ .punctuation .comma)
    (closed : token.kind.toClass ≠ .punctuation .rightParen) :
    Lookahead.isFunctionHead (start :: (value.write ++ token :: more)) = false := by
  obtain ⟨text, alone⟩ | ⟨first, later, starts, named, closes⟩ := write_first shaped
  · rw [alone]
    exact Lookahead.isFunctionHead_of_second comma closed
  · rw [starts]
    exact Lookahead.isFunctionHead_of_first named closes

theorem Writing.parameters_names (param : String) (params : List String) :
    ParameterNames (param :: params) (parameters (param :: params)) := by
  induction params generalizing param with
  | nil => exact .one
  | cons next more ih => exact .more (ih next)

theorem Writing.parameters_spelled (params : List String) :
    Parameters params (parameters params) := by
  cases params with
  | nil => exact .none
  | cons param more => exact .some (parameters_names param more)

theorem Span.merge_point (placed : span = .point 0) : (Span.point 0).merge span = .point 0 := by
  rw [placed]
  rfl

/-- An operand is a condition before a block, which it does not take. -/
theorem Operand.before_block (head : Operand value s)
    (body : Spells (.block isFunctionBody block) t rest) (tokens : List Token) :
    Spells (.expression false value) s (t ++ tokens) := by
  have brace : Lookahead.currentClass (t ++ tokens) = .punctuation .leftBrace := by
    simpa [Phrase.first] using body.first_class rfl tokens
  refine .expression_of_primary (head false _) ?_ ?_
  · simp [Lookahead.endsSuffixes, brace]
  · refine Option.eq_none_iff_forall_ne_some.mpr fun operator found => ?_
    have named : Lookahead.currentClass (t ++ tokens) = .identifier := operator_class found
    rw [brace] at named
    contradiction

/-- An operand at the end of a line is an expression. -/
theorem Operand.line (head : Operand value s) (more : List Token) :
    Spells (.expression true value) s (.unplaced .newline :: more) :=
  .expression_of_primary (head true _) rfl rfl

theorem Operand.declare (text : String) (head : Operand value s) (placed : value.span = .point 0)
    (more : List Token) : Spells (.statement (.declare text value (.point 0)))
      (word .letWord :: name text :: mark .assign :: s) (.unplaced .newline :: more) := by
  rw [← Span.merge_point placed]
  exact .declare (head.line more)

theorem Operand.assign (text : String) (head : Operand value s) (placed : value.span = .point 0)
    (more : List Token) : Spells (.statement (.assign text value (.point 0)))
      (name text :: mark .assign :: s) (.unplaced .newline :: more) := by
  rw [← Span.merge_point placed]
  exact .assign (head.line more)

theorem Operand.forEach (binding : String) (head : Operand iterable s)
    (placed : body.span = .point 0) (tail : ∀ rest, Spells (.block false body) t rest)
    (rest : List Token) : Spells (.statement (.forEach binding iterable body (.point 0)))
      (word .forWord :: name binding :: word .inWord :: (s ++ t)) rest := by
  rw [← Span.merge_point placed]
  exact .forEach (head.before_block (tail []) _) (tail _)

theorem Spells.block_written (isFunctionBody : Bool)
    (inner : Spells (.statements true body) s (mark .rightBrace :: rest)) :
    Spells (.block isFunctionBody (.mk body isFunctionBody (.point 0)))
      (mark .leftBrace :: (s ++ [mark .rightBrace])) rest := by
  have whole : Spells (.block isFunctionBody (.mk body isFunctionBody
      ((Span.point 0).merge (.point 0)))) (mark .leftBrace :: ([] ++ (s ++ [mark .rightBrace])))
      rest := .block .nil inner
  rwa [Span.merge_point rfl] at whole

/-- An operand and its suffixes are an expression in parentheses. -/
theorem Operand.followed (head : Operand value s)
    (tail : Spells (.suffixes true value result) t (mark .rightParen :: more)) :
    Spells (.expression true result) (s ++ t) (mark .rightParen :: more) := by
  have whole := Spells.expression (t := []) (.call (head true _) tail) (.operationsEnd rfl)
  rwa [List.append_nil] at whole

namespace Enclosable

theorem function (params : List String) (placed : body.span = .point 0)
    (inner : ∀ rest, Spells (.block true body) s rest) :
    Enclosable (.function params body (.point 0))
      (mark .leftParen :: (parameters params ++ mark .rightParen :: mark .arrow :: s)) := by
  intro more
  refine ⟨Lookahead.isFunctionHead_of_first (by decide) (by decide), ?_⟩
  rw [← Span.merge_point placed]
  exact .expression_of_primary (.primaryFunction
    (.function (n := []) (parameters_spelled params) .nil (.braced (inner _)))) rfl rfl

theorem call (head : Operand callee s) (opens : ∀ more, Lookahead.isFunctionHead
      (mark .leftParen :: (s ++ mark .leftParen :: more)) = false)
    (placed : callee.span = .point 0)
    (tail : ∀ rest, Spells (.argumentsTail args (.point 0)) t rest) :
    Enclosable (.call callee args (.point 0)) (s ++ mark .leftParen :: t) := by
  intro more
  refine ⟨by simpa using opens (t ++ mark .rightParen :: more), ?_⟩
  have suffixes : Spells (.suffixes true callee (.call callee args (callee.span.merge (.point 0))))
      (mark .leftParen :: t ++ []) (mark .rightParen :: more) :=
    .suffixesCall (.arguments (n := []) .nil (tail _)) (.suffixesEnd rfl)
  rw [placed, List.append_nil] at suffixes
  exact head.followed suffixes

theorem methodCall (method : String) (head : Operand receiver s)
    (opens : ∀ more, Lookahead.isFunctionHead
      (mark .leftParen :: (s ++ mark .dot :: more)) = false)
    (placed : receiver.span = .point 0)
    (tail : ∀ rest, Spells (.argumentsTail args (.point 0)) t rest) :
    Enclosable (.methodCall receiver method args (.point 0))
      (s ++ mark .dot :: name method :: mark .leftParen :: t) := by
  intro more
  have open' := opens (name method :: mark .leftParen :: (t ++ mark .rightParen :: more))
  refine ⟨by simpa using open', ?_⟩
  have suffixes : Spells (.suffixes true receiver
        (.methodCall receiver method args (receiver.span.merge (.point 0))))
      (mark .dot :: name method :: (mark .leftParen :: t ++ [])) (mark .rightParen :: more) :=
    .suffixesMethod (.arguments (n := []) .nil (tail _)) (.suffixesEnd rfl)
  rw [placed, List.append_nil] at suffixes
  exact head.followed suffixes

/-- A block goes behind a call in parentheses. -/
theorem block {body : Block} (inner : Enclosable value s) (isCall : value.isCall = true)
    (placed : value.span = .point 0) (spelled : ∀ rest, Spells (.block true body) t rest) :
    Enclosable (value.withTrailingBlock body) (parenthesized s ++ t) := by
  intro more
  refine ⟨Lookahead.isFunctionHead_of_first (by decide) (by decide), ?_⟩
  exact (inner.operand placed).followed (.suffixesBlock isCall (spelled _))

theorem operation (known : isOperatorName operator = true) (head : Operand left s)
    (opens : ∀ more, Lookahead.isFunctionHead
      (mark .leftParen :: (s ++ name operator :: more)) = false)
    (placed : left.span = .point 0) (placed' : right.span = .point 0) (tail : Operand right t) :
    Enclosable (.operation operator left right (.point 0)) (s ++ name operator :: t) := by
  intro more
  refine ⟨by simpa using opens (t ++ mark .rightParen :: more), ?_⟩
  have operations : Spells (.operations true left
        (.operation operator left right (left.span.merge right.span)))
      (name operator :: (t ++ [])) (mark .rightParen :: more) :=
    .operationsMore (if_pos known) (.call_of_primary (tail true _) rfl) (.operationsEnd rfl)
  rw [placed, placed', List.append_nil] at operations
  refine .expression (.call_of_primary (head true _) rfl) operations

theorem conditional (head : Operand condition s) (placed : thenBranch.span = .point 0)
    (tail : ∀ rest, Spells (.block false thenBranch) t rest) :
    Enclosable (.conditional condition thenBranch none (.point 0))
      (word .ifWord :: (s ++ t)) := by
  intro more
  refine ⟨Lookahead.isFunctionHead_of_first (by decide) (by decide), ?_⟩
  rw [← Span.merge_point placed]
  exact .expression_of_primary (.primaryConditional (.conditional (n := [])
    (head.before_block (tail []) _) .nil (.braced (tail _)) rfl)) rfl rfl

theorem conditionalElse (head : Operand condition s)
    (branch : ∀ rest, Spells (.block false thenBranch) t rest)
    (placed : elseBranch.span = .point 0)
    (other : ∀ rest, Spells (.block false elseBranch) u rest) :
    Enclosable (.conditional condition thenBranch (some elseBranch) (.point 0))
      (word .ifWord :: (s ++ (t ++ word .elseWord :: u))) := by
  intro more
  refine ⟨Lookahead.isFunctionHead_of_first (by decide) (by decide), ?_⟩
  have alternative :
      Spells (.alternative true elseBranch) ([] ++ u) (mark .rightParen :: more) := by
    have brace : Lookahead.currentClass (u ++ []) = .punctuation .leftBrace := by
      simpa [Phrase.first] using (other []).first_class rfl []
    rw [List.append_nil] at brace
    refine .alternative .nil (.braced (other _)) ?_
    simp [brace]
  rw [← Span.merge_point placed]
  exact .expression_of_primary (.primaryConditional (.conditionalElse (n := []) (m := [])
    (head.before_block (branch []) _) .nil (.braced (branch _)) .nil alternative)) rfl rfl

end Enclosable

/-- A kind of call by its arguments, which can take blocks. -/
structure CallForm (make : List Expr → Expr) : Prop where
  isCall : ∀ args, (make args).isCall = true
  span : ∀ args, (make args).span = .point 0
  append : ∀ args body, body.span = .point 0 →
    (make args).withTrailingBlock body = make (args ++ [.trailingBlock body (.point 0)])

theorem CallForm.call (callee : Expr) : CallForm (.call callee · (.point 0)) where
  isCall _ := rfl
  span _ := rfl
  append args body placed := by
    rw [Expr.withTrailingBlock, placed]
    rfl

theorem CallForm.methodCall (receiver : Expr) (method : String) :
    CallForm (.methodCall receiver method · (.point 0)) where
  isCall _ := rfl
  span _ := rfl
  append args body placed := by
    rw [Expr.withTrailingBlock, placed]
    rfl

/-- Arguments are those between the parentheses and then the blocks. -/
theorem Expr.areShaped_split (shaped : Expr.areShaped values = true) :
    values = values.filter (fun value => !value.isTrailingBlock) ++
      values.filter Expr.isTrailingBlock := by
  induction values with
  | nil => rfl
  | cons value values ih =>
    simp only [Expr.areShaped, Bool.and_eq_true] at shaped
    obtain ⟨⟨_, more⟩, last⟩ := shaped
    cases trailing : value.isTrailingBlock with
    | false => simpa [trailing] using ih more
    | true =>
      have blocks : ∀ value ∈ values, value.isTrailingBlock = true := by
        simpa [trailing] using last
      have none : values.filter (fun value => !value.isTrailingBlock) = [] := by
        simpa using blocks
      simp [trailing, none, List.filter_eq_self.mpr blocks]

theorem Expr.mapSpans_eq_map (change : Span → Span) (values : List Expr) :
    Expr.mapSpans change values = values.map (Expr.mapSpan change) := by
  induction values with
  | nil => rw [Expr.mapSpans, List.map_nil]
  | cons value values ih => rw [Expr.mapSpans, List.map_cons, ih]

theorem Expr.span_eraseSpans (value : Expr) : value.eraseSpans.span = .point 0 :=
  Expr.span_mapSpan _ value

theorem Block.span_eraseSpans (block : Block) : block.eraseSpans.span = .point 0 :=
  Block.span_mapSpan _ block

mutual

/-- What is written for an expression is an operand that spells it. -/
theorem Expr.write_operand (value : Expr) (shaped : value.isShaped false = true) :
    Operand value.eraseSpans value.write := by
  match value with
  | .number .. | .string .. | .null .. | .identifier .. =>
    intro trailing rest
    simp only [Expr.eraseSpans, Expr.mapSpan, Expr.write]
    constructor
  | .boolean value _ =>
    intro trailing rest
    simp only [Expr.eraseSpans, Expr.mapSpan, Expr.write]
    cases value <;> constructor
  | .function params body _ =>
    simp only [Expr.isShaped] at shaped
    have inner := Enclosable.function params body.span_eraseSpans (body.write_spells true shaped)
    simp only [Expr.eraseSpans, Expr.mapSpan, Expr.write]
    exact inner.operand rfl
  | .call callee args _ =>
    simp only [Expr.isShaped, Bool.and_eq_true] at shaped
    have inner := Enclosable.call (callee.write_operand shaped.1)
      (fun _ => Expr.write_opens shaped.1 nofun nofun) callee.span_eraseSpans
      (Expr.writeArguments_spells args shaped.2)
    have whole := Expr.writeBlocks_enclosable (.call callee.eraseSpans) args shaped.2 inner
    rw [← List.map_append, ← Expr.areShaped_split shaped.2] at whole
    simp only [Expr.eraseSpans, Expr.mapSpan, Expr.mapSpans_eq_map, Expr.write]
    exact whole.operand rfl
  | .methodCall receiver method args _ =>
    simp only [Expr.isShaped, Bool.and_eq_true] at shaped
    have inner := Enclosable.methodCall method (receiver.write_operand shaped.1)
      (fun _ => Expr.write_opens shaped.1 nofun nofun) receiver.span_eraseSpans
      (Expr.writeArguments_spells args shaped.2)
    have whole := Expr.writeBlocks_enclosable (.methodCall receiver.eraseSpans method) args
      shaped.2 inner
    rw [← List.map_append, ← Expr.areShaped_split shaped.2] at whole
    simp only [Expr.eraseSpans, Expr.mapSpan, Expr.mapSpans_eq_map, Expr.write]
    exact whole.operand rfl
  | .block body _ =>
    intro trailing rest
    simp only [Expr.isShaped] at shaped
    have inner : Spells (.primary trailing (.block body.eraseSpans body.eraseSpans.span))
        body.write rest := .primaryBlock (body.write_spells false shaped rest)
    rw [body.span_eraseSpans] at inner
    simp only [Expr.eraseSpans, Expr.mapSpan, Expr.write]
    exact inner
  | .trailingBlock body _ => simp [Expr.isShaped] at shaped
  | .conditional condition thenBranch none _ =>
    simp only [Expr.isShaped, Bool.and_eq_true] at shaped
    have inner := Enclosable.conditional (condition.write_operand shaped.1)
      thenBranch.span_eraseSpans (thenBranch.write_spells false shaped.2)
    simp only [Expr.eraseSpans, Expr.mapSpan, Expr.write]
    exact inner.operand rfl
  | .conditional condition thenBranch (some elseBranch) _ =>
    simp only [Expr.isShaped, Bool.and_eq_true] at shaped
    have inner := Enclosable.conditionalElse (condition.write_operand shaped.1.1)
      (thenBranch.write_spells false shaped.1.2) elseBranch.span_eraseSpans
      (elseBranch.write_spells false shaped.2)
    simp only [Expr.eraseSpans, Expr.mapSpan, Expr.write]
    exact inner.operand rfl
  | .operation operator left right _ =>
    simp only [Expr.isShaped, Bool.and_eq_true] at shaped
    have inner := Enclosable.operation shaped.1.1 (left.write_operand shaped.1.2)
      (fun _ => Expr.write_opens shaped.1.2 nofun nofun) left.span_eraseSpans
      right.span_eraseSpans (right.write_operand shaped.2)
    simp only [Expr.eraseSpans, Expr.mapSpan, Expr.write]
    exact inner.operand rfl

theorem Expr.writeArguments_spells (values : List Expr) (shaped : Expr.areShaped values = true)
    (rest : List Token) :
    Spells (.argumentsTail ((values.filter fun value => !value.isTrailingBlock).map Expr.eraseSpans)
      (.point 0)) (Expr.writeArguments values) rest := by
  match values with
  | [] =>
    rw [Expr.writeArguments]
    exact .argumentsNone
  | first :: more =>
    simp only [Expr.areShaped, Bool.and_eq_true] at shaped
    have tail := Expr.writeArguments_spells more shaped.1.2 rest
    rw [Expr.writeArguments]
    cases trailing : first.isTrailingBlock with
    | true => simpa [trailing] using tail
    | false =>
      have head := first.write_operand (Expr.isShaped_of_argument shaped.1.1 trailing)
      rw [if_neg nofun, List.filter_cons_of_pos (by simp [trailing]), List.map_cons]
      exact .argumentsMore (n := []) (m := []) (.expression_of_primary (head true _) rfl rfl)
        .nil .nil tail

theorem Expr.writeBlocks_enclosable (form : CallForm make) (values : List Expr)
    (shaped : Expr.areShaped values = true) (inner : Enclosable (make args) call) :
    Enclosable (make (args ++ (values.filter Expr.isTrailingBlock).map Expr.eraseSpans))
      (Expr.writeBlocks call values) := by
  match values with
  | [] => simpa [Expr.writeBlocks] using inner
  | first :: more =>
    simp only [Expr.areShaped, Bool.and_eq_true] at shaped
    obtain ⟨⟨head, tail⟩, _⟩ := shaped
    cases first with
    | trailingBlock body =>
      simp only [Expr.isShaped, Bool.true_and] at head
      have attached := inner.block (form.isCall args) (form.span args)
        (body.write_spells true head)
      rw [form.append args _ body.span_eraseSpans] at attached
      have whole := Expr.writeBlocks_enclosable form more tail attached
      rw [List.append_assoc] at whole
      simp only [Expr.writeBlocks, Expr.write]
      exact whole
    | _ =>
      have whole := Expr.writeBlocks_enclosable form more tail inner
      simpa [Expr.writeBlocks, Expr.isTrailingBlock] using whole

theorem Stmt.write_spells (stmt : Stmt) (shaped : stmt.isShaped = true) (more : List Token) :
    Spells (.statement stmt.eraseSpans) stmt.write (.unplaced .newline :: more) := by
  match stmt with
  | .declare text value _ =>
    simp only [Stmt.isShaped] at shaped
    simp only [Stmt.eraseSpans, Stmt.mapSpan, Stmt.write]
    exact (value.write_operand shaped).declare text value.span_eraseSpans more
  | .assign text value _ =>
    simp only [Stmt.isShaped] at shaped
    simp only [Stmt.eraseSpans, Stmt.mapSpan, Stmt.write]
    exact (value.write_operand shaped).assign text value.span_eraseSpans more
  | .forEach binding iterable body _ =>
    simp only [Stmt.isShaped, Bool.and_eq_true] at shaped
    simp only [Stmt.eraseSpans, Stmt.mapSpan, Stmt.write]
    exact (iterable.write_operand shaped.1).forEach binding body.span_eraseSpans
      (body.write_spells false shaped.2) _
  | .expr value _ =>
    simp only [Stmt.isShaped] at shaped
    have line := (value.write_operand shaped).line more
    have plain : Lookahead.startsAssignment (value.write ++ .unplaced .newline :: more) = false :=
      Lookahead.startsAssignment_append (line.length_pos rfl) line.expression_plain nofun
    have inner := Spells.expressionStatement line plain
    rw [value.span_eraseSpans] at inner
    simp only [Stmt.eraseSpans, Stmt.mapSpan, Stmt.write]
    exact inner

theorem Stmt.writeLines_spells (inBlock : Bool) (stmts : List Stmt)
    (shaped : Stmt.areShaped stmts = true) (rest : List Token)
    (ends : Lookahead.endsStatements inBlock rest = true) :
    Spells (.statements inBlock (Stmt.mapSpans (fun _ => .point 0) stmts))
      (Stmt.writeLines stmts) rest := by
  match stmts with
  | [] =>
    simp only [Stmt.mapSpans, Stmt.writeLines]
    exact .statementsEnd ends
  | first :: more =>
    simp only [Stmt.areShaped, Bool.and_eq_true] at shaped
    have newline : Newlines [.unplaced .newline] := List.forall_mem_singleton.mpr rfl
    simp only [Stmt.mapSpans, Stmt.writeLines]
    exact .statementsMore (first.write_spells shaped.1 _) newline
      (Stmt.writeLines_spells inBlock more shaped.2 rest ends)

theorem Block.write_spells (block : Block) (asFunctionBody : Bool)
    (shaped : block.isShaped asFunctionBody = true) (rest : List Token) :
    Spells (.block asFunctionBody block.eraseSpans) block.write rest := by
  match block with
  | .mk statements isFunctionBody _ =>
    simp only [Block.isShaped, Bool.and_eq_true, beq_iff_eq] at shaped
    obtain ⟨rfl, shaped⟩ := shaped
    simp only [Block.eraseSpans, Block.mapSpan, Block.write]
    exact Spells.block_written _
      (Stmt.writeLines_spells true statements shaped (mark .rightBrace :: rest) rfl)

end

theorem Program.isShaped_eraseSpans (program : Program) :
    program.eraseSpans.isShaped = program.isShaped :=
  Stmt.areShaped_mapSpans program.statements

theorem Program.eraseSpans_eraseSpans (program : Program) :
    program.eraseSpans.eraseSpans = program.eraseSpans :=
  congrArg Program.mk (Stmt.mapSpans_mapSpans _ _ program.statements)

/-- Trees have tokens that spell them, up to spans, if and only if they have the form of
parsed trees. -/
theorem Program.exists_tokens_iff_isShaped (program : Program) :
    (∃ tokens finish parsed, finish.kind = .endOfInput ∧
      Program.ofTokens (tokens ++ [finish]) = .ok parsed ∧
      parsed.eraseSpans = program.eraseSpans) ↔ program.isShaped = true := by
  constructor
  · rintro ⟨tokens, finish, parsed, _, spells, same⟩
    obtain ⟨n, s, rest, _, _, spelled⟩ := Program.ofTokens_eq_ok_iff.mp spells
    have shaped : parsed.eraseSpans.isShaped = true := by
      rw [Program.isShaped_eraseSpans]
      exact spelled.isShaped
    rwa [same, Program.isShaped_eraseSpans] at shaped
  · intro shaped
    have lines := Stmt.writeLines_spells false program.statements shaped
      [.unplaced .endOfInput] rfl
    have spells : Program.ofTokens
        (Stmt.writeLines program.statements ++ [.unplaced .endOfInput]) = .ok program.eraseSpans :=
      Program.ofTokens_eq_ok_iff.mpr ⟨[], _, _, .nil, rfl, lines⟩
    exact ⟨_, _, program.eraseSpans, rfl, spells, Program.eraseSpans_eraseSpans program⟩

end PixelScript
