import PixelScript.Proofs.Syntax.Respelling
import PixelScript.Proofs.Syntax.Viability

/-! The brace behind a condition or an iterable belongs to the construct. An expression that
stands alone may end with a block that a call takes, which it must not do as a condition.
Where all such blocks stand inside of brackets the expression is read in the same way in a
condition, because brackets start afresh, and then the brace that follows ends it. -/
namespace PixelScript
open Grammar
open Writing

/-- By how much a token changes the number of open brackets. -/
def TokenKind.nests : TokenKind → Int
  | punctuation .leftParen | punctuation .leftBrace => 1
  | punctuation .rightParen | punctuation .rightBrace => -1
  | _ => 0

namespace Token

/-- How many brackets are open behind the tokens. -/
def nesting (tokens : List Token) : Int :=
  (tokens.map (·.kind.nests)).sum

/-- The tokens with their places in the list as spans. -/
def numbered (tokens : List Token) : List Token :=
  tokens.mapIdx fun place token => ⟨token.kind, ⟨place, place + 1⟩⟩

/-- Every block that a call takes as its last argument starts inside of brackets. The blocks
are found in the tree, and their places by the numbers of the tokens. -/
def BlocksBracketed (tokens : List Token) : Prop :=
  ∀ program, Program.ofTokens (numbered tokens) = .ok program →
    ∀ body span, .expr (.trailingBlock body span) ∈ program.nodes →
      0 < nesting (tokens.take span.start)

@[simp] theorem nesting_nil : nesting [] = 0 := rfl

@[simp] theorem nesting_cons (token : Token) (tokens : List Token) :
    nesting (token :: tokens) = token.kind.nests + nesting tokens := by
  simp [nesting]

@[simp] theorem nesting_append (s t : List Token) : nesting (s ++ t) = nesting s + nesting t := by
  simp [nesting]

theorem kind_numbered (tokens : List Token) :
    (numbered tokens).map (·.kind) = tokens.map (·.kind) := by
  refine List.ext_getElem? fun place => ?_
  simp [numbered, Function.comp_def]

theorem nesting_take_numbered (tokens : List Token) (place : Nat) :
    nesting ((numbered tokens).take place) = nesting (tokens.take place) := by
  have kinds := congrArg (fun list => ((list.take place).map TokenKind.nests).sum)
    (kind_numbered tokens)
  simpa [nesting, ← List.map_take, Function.comp_def] using kinds

/-- The number of a token is the number of those before it. -/
theorem span_of_numbered (split : numbered tokens = before ++ token :: after) :
    token.span = ⟨before.length, before.length + 1⟩ := by
  have found := congrArg (·[before.length]?) split
  simp only [numbered, List.getElem?_mapIdx, List.getElem?_append_right (Nat.le_refl _),
    Nat.sub_self, List.getElem?_cons_zero, Option.map_eq_some_iff] at found
  obtain ⟨_, _, rfl⟩ := found
  rfl

end Token

open Token

theorem Newlines.balanced (newlines : Newlines n) : nesting n = 0 := by
  induction n with
  | nil => rfl
  | cons token n ih =>
    have first := newlines.head
    obtain ⟨_, later⟩ := List.forall_mem_cons.mp newlines
    rw [nesting_cons, ih later]
    cases kind : token.kind <;> simp_all [TokenKind.toClass, TokenKind.nests]

theorem Parameters.balanced (parameters : Parameters params p) : nesting p = 0 := by
  cases parameters with
  | none => rfl
  | some names =>
    induction names with
    | one => rfl
    | more _ ih => simpa [TokenKind.nests] using ih

theorem operator_nests {kind : TokenKind} (found : kind.operator? = some operator) :
    kind.nests = 0 := by
  cases kind <;> simp_all [TokenKind.operator?, TokenKind.nests]

/-- How many brackets a phrase closes that were open before it. -/
def Phrase.closes : Phrase → Int
  | argumentsTail .. => 1
  | _ => 0

/-- Every phrase closes the brackets that it opens. -/
theorem Spells.nesting_eq (spelled : Spells phrase s rest) : nesting s + phrase.closes = 0 := by
  induction spelled with
  | expression _ _ head tail | call _ _ head tail | suffixesCall _ _ head tail
  | suffixesMethod _ _ head tail =>
    simp only [nesting_append, nesting_cons, TokenKind.nests, Phrase.closes] at head tail ⊢
    omega
  | operationsMore found _ _ head tail =>
    simp only [nesting_append, nesting_cons, operator_nests found, Phrase.closes] at head tail ⊢
    omega
  | arguments newlines _ tail =>
    simp only [nesting_append, nesting_cons, TokenKind.nests, newlines.balanced, Phrase.closes]
      at tail ⊢
    omega
  | argumentsLast _ newlines head =>
    simp only [nesting_append, nesting_cons, nesting_nil, TokenKind.nests, newlines.balanced,
      Phrase.closes] at head ⊢
    omega
  | argumentsMore _ newlines newlines' _ head tail =>
    simp only [nesting_append, nesting_cons, TokenKind.nests, newlines.balanced, newlines'.balanced,
      Phrase.closes] at head tail ⊢
    omega
  | operationsEnd | suffixesEnd | statementsEnd | argumentsNone | number | string | trueWord
  | falseWord | nullWord | identifier => rfl
  | suffixesBlock _ _ ih | primaryConditional _ ih | primaryBlock _ ih | primaryFunction _ ih
  | primaryParenthesized _ _ ih | braced _ ih | bare _ _ ih | alternativeConditional _ ih
  | expressionStatement _ _ ih => exact ih
  | parenthesized newlines _ newlines' ih =>
    simp only [nesting_append, nesting_cons, nesting_nil, TokenKind.nests, newlines.balanced,
      newlines'.balanced, Phrase.closes] at ih ⊢
    omega
  | function parameters newlines _ ih =>
    simp only [nesting_append, nesting_cons, TokenKind.nests, parameters.balanced,
      newlines.balanced, Phrase.closes] at ih ⊢
    omega
  | conditional _ newlines _ _ condition branch =>
    simp only [nesting_append, nesting_cons, TokenKind.nests, newlines.balanced, Phrase.closes]
      at condition branch ⊢
    omega
  | conditionalElse _ newlines _ newlines' _ condition branch other =>
    simp only [nesting_append, nesting_cons, TokenKind.nests, newlines.balanced, newlines'.balanced,
      Phrase.closes] at condition branch other ⊢
    omega
  | alternative newlines _ _ ih =>
    simp only [nesting_append, newlines.balanced, Phrase.closes] at ih ⊢
    omega
  | block newlines _ ih =>
    simp only [nesting_append, nesting_cons, nesting_nil, TokenKind.nests, newlines.balanced,
      Phrase.closes] at ih ⊢
    omega
  | statementsMore _ newlines _ head tail =>
    simp only [nesting_append, newlines.balanced, Phrase.closes] at head tail ⊢
    omega
  | declare _ ih | assign _ ih =>
    simp only [nesting_cons, TokenKind.nests, Phrase.closes] at ih ⊢
    omega
  | forEach _ _ head tail =>
    simp only [nesting_append, nesting_cons, TokenKind.nests, Phrase.closes] at head tail ⊢
    omega

theorem Expr.inner_withTrailingBlock {value : Expr} (isCall : value.isCall = true) (block : Block) :
    (value.withTrailingBlock block).inner =
      value.inner ++ .expr (.trailingBlock block block.span) :: block.nodes := by
  cases value with
  | call | methodCall =>
    simp [Expr.withTrailingBlock, Expr.inner, Expr.nodes_append, Expr.nodes]
  | _ => contradiction

/-- Operators and suffixes keep the nodes of what they are behind. -/
def Phrase.Grows : Phrase → Prop
  | operations _ left result | suffixes _ left result => left.inner ⊆ result.inner
  | _ => True

theorem Spells.grows (spelled : Spells phrase s rest) : phrase.Grows := by
  induction spelled with
  | operationsEnd | suffixesEnd => exact List.Subset.refl _
  | operationsMore _ _ _ _ ih | suffixesCall _ _ _ ih | suffixesMethod _ _ _ ih =>
    intro node member
    exact ih (by simp [Expr.inner, member])
  | suffixesBlock isCall =>
    intro node member
    simp [Expr.inner_withTrailingBlock isCall, member]
  | _ => trivial

namespace Phrase

/-- The nodes below what a phrase gives, for the phrases that are read in another way in a
condition. -/
def below : Phrase → List Node
  | expression _ result | operations _ _ result | call _ result | suffixes _ _ result
  | primary _ result | function _ result | conditional _ result => result.inner
  | blockOrExpression _ _ result | alternative _ result => result.nodes
  | _ => []

/-- Every block that a call has taken in the phrase starts inside of brackets. -/
def Bracketed (tokens : List Token) (phrase : Phrase) : Prop :=
  ∀ body span, .expr (.trailingBlock body span) ∈ phrase.below →
    0 < nesting (tokens.take span.start)

theorem Bracketed.mono {phrase part : Phrase} (bracketed : phrase.Bracketed tokens)
    (below : part.below ⊆ phrase.below) : part.Bracketed tokens :=
  fun body span member => bracketed body span (below member)

end Phrase

/-- In numbered tokens a block starts at the number of tokens before it. -/
theorem Spells.block_start (spelled : Spells (.block isFunctionBody body) s rest)
    (split : numbered tokens = front ++ (s ++ rest)) : body.span.start = front.length := by
  cases spelled with
  | @block n _ s close _ _ start _ _ =>
    have opens := span_of_numbered split
    have closes : numbered tokens = (front ++ ⟨.punctuation .leftBrace, start⟩ :: (n ++ s)) ++
        ⟨.punctuation .rightBrace, close⟩ :: rest := by
      rw [split]
      simp
    have closes := span_of_numbered closes
    simp only at opens closes
    rw [Block.span, Span.merge, opens, closes]
    simp

theorem Spells.level (spelled : Spells phrase s rest) (own : phrase.closes = 0)
    (level : nesting front = 0) : nesting (front ++ s) = 0 := by
  have balanced := spelled.nesting_eq
  rw [nesting_append]
  omega

/-- A condition with its `if` and the newlines behind it leaves no bracket open. -/
theorem Spells.level_condition (condition : Spells (.expression false test) s rest)
    (newlines : Newlines n) (level : nesting front = 0) (start : Span) :
    nesting (front ++ (⟨.keyword .ifWord, start⟩ :: (s ++ n))) = 0 := by
  have balanced := condition.level rfl level
  simpa [TokenKind.nests, newlines.balanced] using balanced

theorem Block.inner_subset_ofExpr (value : Expr) (isFunctionBody : Bool) :
    value.inner ⊆ (Block.ofExpr value isFunctionBody).nodes := by
  intro node member
  simp [Block.ofExpr, Block.nodes, Stmt.nodes, Stmt.inner, member]

/-- Outside of brackets, an expression whose calls have taken no block there is read in the
same way in a condition. -/
theorem Spells.lowered (spelled : Spells phrase s rest) (front : List Token)
    (split : numbered tokens = front ++ (s ++ rest)) (level : nesting front = 0)
    (bracketed : phrase.Bracketed tokens) : Spells (phrase.withTrailing false) s rest := by
  induction spelled generalizing front with
  | expression head tail ihHead ihTail =>
    exact .expression (ihHead front (by simpa using split) level (bracketed.mono tail.grows))
      (ihTail (front ++ _) (by simpa using split) (head.level rfl level) bracketed)
  | operationsEnd ends => exact .operationsEnd ends
  | @operationsMore _ _ _ _ _ _ _ _ token found head tail ihHead ihTail =>
    have behind : nesting (front ++ [token]) = 0 := by simp [level, operator_nests found]
    refine .operationsMore found (ihHead (front ++ [token]) (by simpa using split) behind
      (bracketed.mono ?_)) (ihTail (front ++ [token] ++ _) (by simpa using split)
      (head.level rfl behind) bracketed)
    intro node member
    exact tail.grows (by simp_all [Phrase.below, Expr.inner])
  | call head tail ihHead ihTail =>
    exact .call (ihHead front (by simpa using split) level (bracketed.mono tail.grows))
      (ihTail (front ++ _) (by simpa using split) (head.level rfl level) bracketed)
  | suffixesEnd ends =>
    -- a call that may not take a block ends wherever one that may does
    refine .suffixesEnd ?_
    unfold Lookahead.endsSuffixes at ends ⊢
    split <;> simp_all
  | suffixesCall head tail _ ihTail =>
    exact .suffixesCall head
      (ihTail (front ++ _) (by simpa using split) (head.level rfl level) bracketed)
  | @suffixesMethod _ _ _ _ _ _ _ method _ dot name head tail _ ihTail =>
    have behind :
        nesting (front ++ [⟨.punctuation .dot, dot⟩, ⟨.identifier method, name⟩]) = 0 := by
      simp [level, TokenKind.nests]
    exact .suffixesMethod head (ihTail (front ++ [_, _] ++ _) (by simpa using split)
      (head.level rfl behind) bracketed)
  | @suffixesBlock block _ _ value isCall body =>
    -- the block would stand outside of brackets
    have inside := bracketed block block.span
      (by simp [Phrase.below, Expr.inner_withTrailingBlock isCall])
    rw [body.block_start split, ← nesting_take_numbered, split, List.take_left, level] at inside
    exact absurd inside (Int.lt_irrefl 0)
  | argumentsNone | number | string | trueWord | falseWord | nullWord | identifier => constructor
  | arguments newlines tail => exact .arguments newlines tail
  | argumentsLast head newlines => exact .argumentsLast head newlines
  | argumentsMore head newlines newlines' tail => exact .argumentsMore head newlines newlines' tail
  | primaryConditional _ ih => exact .primaryConditional (ih front split level bracketed)
  | primaryBlock inner => exact .primaryBlock inner
  | primaryFunction _ ih => exact .primaryFunction (ih front split level bracketed)
  | primaryParenthesized inner plain => exact .primaryParenthesized inner plain
  | parenthesized newlines inner newlines' => exact .parenthesized newlines inner newlines'
  | @function _ p n _ _ _ _ start close arrow parameters newlines inner ih =>
    have behind : nesting (front ++ (⟨.punctuation .leftParen, start⟩ :: (p ++
        ⟨.punctuation .rightParen, close⟩ :: ⟨.punctuation .arrow, arrow⟩ :: n))) = 0 := by
      simp [level, TokenKind.nests, parameters.balanced, newlines.balanced]
    exact .function parameters newlines (ih _ (by simpa using split) behind bracketed)
  | braced inner => exact .braced inner
  | @bare _ value _ _ isFunctionBody inner unbraced ih =>
    have below := Block.inner_subset_ofExpr value isFunctionBody
    exact .bare (ih front split level (bracketed.mono below)) unbraced
  | @conditional _ _ _ _ _ _ _ start condition newlines branch noElse _ ih =>
    have behind := condition.level_condition newlines level start
    refine .conditional condition newlines (ih _ (by simpa using split) behind
      (bracketed.mono ?_)) noElse
    intro node member
    simp_all [Phrase.below, Expr.inner]
  | @conditionalElse _ s n t m _ _ _ _ _ start word condition newlines branch newlines' other _
      ihBranch ihOther =>
    have behind := condition.level_condition newlines level start
    have behind' : nesting (front ++ (⟨.keyword .ifWord, start⟩ :: (s ++ n)) ++ t ++
        (m ++ [⟨.keyword .elseWord, word⟩])) = 0 := by
      have balanced := branch.level rfl behind
      simpa [TokenKind.nests, newlines'.balanced] using balanced
    refine .conditionalElse condition newlines (ihBranch _ (by simpa using split) behind
      (bracketed.mono ?_)) newlines' (ihOther _ (by simpa using split) behind' (bracketed.mono ?_))
    all_goals
      intro node member
      simp_all [Phrase.below, Expr.inner]
  | @alternativeConditional _ nested _ _ inner ih =>
    have below := Block.inner_subset_ofExpr nested false
    exact .alternativeConditional (ih front split level (bracketed.mono below))
  | @alternative n _ _ _ _ newlines inner plain ih =>
    have behind : nesting (front ++ n) = 0 := by simp [level, newlines.balanced]
    exact .alternative newlines (ih _ (by simpa using split) behind bracketed) plain
  | block newlines inner => exact .block newlines inner
  | statementsEnd ends => exact .statementsEnd ends
  | statementsMore head newlines tail => exact .statementsMore head newlines tail
  | declare inner => exact .declare inner
  | assign inner => exact .assign inner
  | forEach head tail => exact .forEach head tail
  | expressionStatement inner plain => exact .expressionStatement inner plain

theorem Newlines.kind_eq (newlines : Newlines n) (member : token ∈ n) : token.kind = .newline := by
  have isNewline := newlines token member
  cases kind : token.kind <;> simp_all [Lookahead.isNewline, TokenKind.toClass]

/-- A program of one statement, without newlines around it, is this statement. -/
theorem Spells.of_ofTokens (parsed : Program.ofTokens (s ++ [finish]) = .ok ⟨[stmt]⟩)
    (inside : Inside s) (isEnd : finish.kind = .endOfInput)
    (starts : (s.map (·.kind)).head? = some first) (solid : first ≠ .newline)
    (ends : (s.map (·.kind)).getLast? = some last) (solid' : last ≠ .newline) :
    Spells (.statement stmt) s [finish] := by
  obtain ⟨n, t, rest, newlines, same, spelled⟩ := Program.ofTokens_eq_ok_iff.mp parsed
  obtain rfl := spelled.statements_whole newlines inside isEnd same
  obtain rfl : rest = [finish] := by simpa using same.symm
  have none : n = [] := by
    cases n with
    | nil => rfl
    | cons token n =>
      have isNewline := newlines.kind_eq List.mem_cons_self
      exact absurd ((Option.some.inj starts).symm.trans isNewline) solid
  subst none
  cases spelled with
  | @statementsMore _ s m _ _ _ _ head newlines' tail =>
    cases tail
    obtain rfl | ⟨front, token, rfl⟩ := List.eq_nil_or_concat' m
    · simpa using head
    · have isNewline := newlines'.kind_eq (List.mem_append_right front List.mem_cons_self)
      rw [List.nil_append, List.append_nil, ← List.append_assoc, List.map_append,
        List.map_singleton, List.getLast?_concat] at ends
      exact absurd ((Option.some.inj ends).symm.trans isNewline) solid'

/-- What operators and suffixes give is what they are behind, or an operation or a call. -/
def Phrase.Wraps (s : List Token) : Phrase → Prop
  | operations _ left result => s = [] ∧ result = left ∨
      ∃ operator first second span, result = .operation operator first second span
  | suffixes _ value result => s = [] ∧ result = value ∨ result.isCall = true
  | _ => True

theorem Spells.wraps (spelled : Spells phrase s rest) : phrase.Wraps s := by
  induction spelled with
  | operationsEnd | suffixesEnd => exact .inl ⟨rfl, rfl⟩
  | operationsMore _ _ _ _ ih =>
    obtain ⟨_, rfl⟩ | wrapped := ih
    · exact .inr ⟨_, _, _, _, rfl⟩
    · exact .inr wrapped
  | suffixesCall _ _ _ ih | suffixesMethod _ _ _ ih =>
    obtain ⟨_, rfl⟩ | wrapped := ih
    · exact .inr rfl
    · exact .inr wrapped
  | @suffixesBlock _ _ _ value isCall =>
    refine .inr ?_
    cases value <;> first | rfl | contradiction
  | _ => trivial

/-- A block that an expression starts with is all of it, if the expression is a block. -/
theorem Spells.block_of_expression {span : Span}
    (spelled : Spells (.expression trailing (.block body span)) s rest)
    (opens : Lookahead.currentClass (s ++ rest) = .punctuation .leftBrace) :
    Spells (.block false body) s rest := by
  cases spelled with
  | expression head tail =>
    obtain ⟨rfl, rfl⟩ | ⟨_, _, _, _, absurd⟩ := tail.wraps
    · cases head with
      | call operand suffixes =>
        obtain ⟨rfl, rfl⟩ | absurd := suffixes.wraps
        · simp only [List.append_nil, List.nil_append] at operand opens ⊢
          cases operand with
          | primaryBlock inner => exact inner
          | primaryConditional inner => cases inner
          | primaryFunction inner => cases inner
          | primaryParenthesized inner =>
            have other := inner.first_class rfl rest
            simp [Phrase.first, opens] at other
        · contradiction
    · cases absurd

theorem Inside.of_kinds (inside : Inside s) (same : t.map (·.kind) = s.map (·.kind)) :
    Inside t := by
  intro token member isEnd
  have found : .endOfInput ∈ s.map (·.kind) := by
    rw [← same, ← isEnd]
    exact List.mem_map_of_mem member
  obtain ⟨token', member', isEnd'⟩ := List.mem_map.mp found
  exact inside token' member' isEnd'

/-- A text without newlines around it, and tokens of its kinds that are one statement: they
spell the statement. -/
theorem Scans.spells (scans : Scans 0 text tokens)
    (same : tokens'.map (·.kind) = tokens.map (·.kind))
    (parsed : Program.ofTokens tokens' = .ok ⟨[stmt]⟩)
    (starts : Scan.firstKind? text = some first) (solid : first ≠ .newline)
    (ends : Scan.lastKind? text = some last) (solid' : last ≠ .newline) :
    ∃ s finish, tokens' = s ++ [finish] ∧ s.map (·.kind) = (Scan.pieces text).map (·.1) ∧
      Spells (.statement stmt) s [finish] := by
  obtain ⟨s, finish, rfl, kinds, last⟩ := List.map_eq_append_iff.mp (same.trans scans.kinds)
  obtain ⟨finish, rfl, isEnd⟩ := List.map_eq_singleton_iff.mp last
  have inside : Inside s := by
    obtain ⟨front, rfl⟩ := scans.exists_end
    have kinds' := scans.kinds
    rw [List.map_append] at kinds'
    exact scans.inside.of_kinds (kinds.trans (List.append_inj_left' kinds' rfl).symm)
  refine ⟨s, finish, rfl, kinds, .of_ofTokens parsed inside isEnd ?_ solid ?_ solid'⟩
  · rw [kinds, Scan.head?_pieces starts]
  · rw [kinds, Scan.getLast?_pieces ends]

/-- The tokens of a text, nowhere in particular. -/
def Scan.unplaced (text : List Char) : List Token :=
  ((pieces text).map (·.1)).map Token.unplaced

/-- Without their spans, the tokens of a text spell a phrase without its spans. -/
theorem Spells.unplaced (spelled : Spells phrase s rest)
    (kinds : s.map (·.kind) = (Scan.pieces text).map (·.1)) :
    Spells (phrase.mapSpan fun _ => .point 0) (Scan.unplaced text)
      (rest.map (Token.mapSpan fun _ => .point 0)) := by
  have erased := spelled.mapSpan Span.erase_mergeHom
  rwa [Token.map_erase, kinds] at erased

theorem Program.exists_of_eraseSpans {program : Program} {place : Span}
    (same : program.eraseSpans = Program.eraseSpans ⟨[.expr value place]⟩) :
    ∃ value' place', program = ⟨[.expr value' place']⟩ ∧
      value'.eraseSpans = value.eraseSpans := by
  obtain ⟨statements⟩ := program
  simp only [Program.eraseSpans, Program.mapSpan, Program.mk.injEq] at same
  obtain _ | ⟨stmt, _ | ⟨second, more⟩⟩ := statements
  · simp [Stmt.mapSpans] at same
  · simp only [Stmt.mapSpans, List.cons.injEq, and_true] at same
    cases stmt with
    | expr value' place' =>
      simp only [Stmt.mapSpan, Stmt.expr.injEq, and_true] at same
      exact ⟨value', place', rfl, same⟩
    | _ => simp [Stmt.mapSpan] at same
  · simp [Stmt.mapSpans] at same

/-- A text that can be a condition: it starts and ends with a token other than a newline, it is
a single expression, and no call in it takes a block outside of all brackets. -/
structure ConditionText (source : String) (value : Expr) : Prop where
  starts : ∃ kind, Scan.firstKind? source.toList = some kind ∧ kind ≠ .newline
  ends : ∃ kind, Scan.lastKind? source.toList = some kind ∧ kind ≠ .newline
  parsed : ∃ place, Program.parse source = .ok ⟨[.expr value place]⟩
  bracketed : ∀ tokens, Token.scan source = .ok tokens → BlocksBracketed tokens

/-- A text that is a block in its braces. -/
structure BlockText (source : String) (body : Block) : Prop where
  opens : Scan.firstKind? source.toList = some (.punctuation .leftBrace)
  closes : Scan.lastKind? source.toList = some (.punctuation .rightBrace)
  parsed : ∃ span place, Program.parse source = .ok ⟨[.expr (.block body span) place]⟩

theorem Scan.Row.of_parse {source : String} {program : Program}
    (parsed : Program.parse source = .ok program)
    (ends : Scan.lastKind? source.toList = some last) :
    Scan.Row source.toList ((Scan.pieces source.toList).map (·.1)) := by
  obtain ⟨tokens, scans, _⟩ := Program.parse_eq_ok_iff.mp parsed
  exact ⟨scans.clean, rfl, last, ends⟩

/-- As a condition, the text is read as the expression that it is alone. -/
theorem ConditionText.spells (text : ConditionText source value) (closing : Closing false after) :
    Spells (.expression false value.eraseSpans) (Scan.unplaced source.toList) after := by
  obtain ⟨first, starts, solid⟩ := text.starts
  obtain ⟨last, ends, solid'⟩ := text.ends
  obtain ⟨place, parsed⟩ := text.parsed
  obtain ⟨tokens, scans, parsed⟩ := Program.parse_eq_ok_iff.mp parsed
  obtain ⟨program, parsed', equal⟩ := Program.ofTokens_of_kinds (kind_numbered tokens) parsed
  obtain ⟨value', place', rfl, same⟩ := Program.exists_of_eraseSpans equal
  have bracketed : (Phrase.expression true value').Bracketed tokens := by
    intro body span member
    exact text.bracketed tokens (Scan.tokensFrom_eq_ok_iff.mpr scans) _ parsed' body span
      (by simp_all [Phrase.below, Program.nodes, Stmt.nodes, Stmt.inner])
  obtain ⟨s, finish, split, kinds, spelled⟩ :=
    scans.spells (kind_numbered tokens) parsed' starts solid ends solid'
  cases spelled with
  | expressionStatement inner =>
    have lowered := (inner.lowered [] split rfl bracketed).unplaced kinds
    rw [← same]
    exact @Spells.keeps _ _ _ false _ lowered (closing.yields _)

/-- Wherever it stands, the text is read as the block that it is alone. -/
theorem BlockText.spells (text : BlockText source body) (after : List Token) :
    Spells (.block false body.eraseSpans) (Scan.unplaced source.toList) after := by
  obtain ⟨span, place, parsed⟩ := text.parsed
  obtain ⟨tokens, scans, parsed⟩ := Program.parse_eq_ok_iff.mp parsed
  obtain ⟨s, finish, _, kinds, spelled⟩ :=
    scans.spells rfl parsed text.opens (by simp) text.closes (by simp)
  cases spelled with
  | expressionStatement inner =>
    have opens : Lookahead.currentClass (s ++ [finish]) = .punctuation .leftBrace := by
      have first := Scan.head?_pieces text.opens
      obtain ⟨token, later, rfl, _⟩ := inner.exists_first rfl
      rw [← kinds] at first
      exact congrArg TokenKind.toClass (Option.some.inj first)
    have block := (inner.block_of_expression opens).unplaced kinds
    exact @Spells.keeps _ _ _ true _ block trivial

/-- A row of tokens that spell a statement is a program of this statement, up to spans. -/
theorem Scan.Row.parse (source : String) (row : Scan.Row text kinds)
    (spelled : Spells (.statement stmt) s [.unplaced .endOfInput])
    (written : source.toList = text) (same : s = kinds.map Token.unplaced) :
    ∃ program, Program.parse source = .ok program ∧
      program.eraseSpans = ⟨[stmt.eraseSpans]⟩ := by
  subst written same
  obtain ⟨tokens, scans⟩ := Scans.exists_of_clean row.clean 0
  have same : tokens.map (·.kind) =
      (kinds.map Token.unplaced ++ [Token.unplaced .endOfInput]).map (·.kind) := by
    rw [scans.kinds, row.kinds_eq]
    simp [Token.unplaced, Function.comp_def]
  obtain ⟨program, parsed, equal⟩ := Program.ofTokens_of_kinds same (spelled.ofTokens rfl)
  exact ⟨program, Program.parse_eq_ok_iff.mpr ⟨tokens, scans, parsed⟩, equal⟩

theorem Scan.reads_word (keyword : Keyword) :
    Scan.Reads keyword.text.toList (.keyword keyword) := by
  cases keyword <;> exact ⟨_, _, rfl, rfl⟩

theorem ConditionText.row (text : ConditionText source value) :
    Scan.Row source.toList ((Scan.pieces source.toList).map (·.1)) := by
  obtain ⟨_, parsed⟩ := text.parsed
  obtain ⟨last, ends, _⟩ := text.ends
  exact .of_parse parsed ends

theorem BlockText.row (text : BlockText source body) :
    Scan.Row source.toList ((Scan.pieces source.toList).map (·.1)) := by
  obtain ⟨_, _, parsed⟩ := text.parsed
  exact .of_parse parsed text.closes

@[simp] theorem Expr.mapSpan_eraseSpans (value : Expr) :
    value.eraseSpans.mapSpan (fun _ => .point 0) = value.eraseSpans :=
  Expr.mapSpan_mapSpan _ _ value

@[simp] theorem Block.mapSpan_eraseSpans (body : Block) :
    body.eraseSpans.mapSpan (fun _ => .point 0) = body.eraseSpans :=
  Block.mapSpan_mapSpan _ _ body

theorem Spells.statement_of_conditional
    (inner : Spells (.conditional true value) s [.unplaced .endOfInput]) :
    Spells (.statement (.expr value value.span)) s [.unplaced .endOfInput] := by
  refine .expressionStatement (.expression_of_primary (.primaryConditional inner) rfl rfl) ?_
  cases inner <;> rfl

namespace ConditionText

variable {condition block other binding name : String}

theorem parse_conditional (text : ConditionText condition value) (braces : BlockText block body) :
    ∃ program, Program.parse ("if " ++ condition ++ " " ++ block) = .ok program ∧
      program.eraseSpans = ⟨[.expr (.conditional value.eraseSpans body.eraseSpans none (.point 0))
        (.point 0)]⟩ := by
  have row := (Scan.Row.single (Scan.reads_word .ifWord)).append (text.row.append braces.row)
  have branch := braces.spells [.unplaced .endOfInput]
  have spelled : Spells (.conditional true _) (word .ifWord :: _) _ :=
    .conditional (text.spells branch.closing_of_block) .nil (.braced branch) rfl
  have parsed := row.parse ("if " ++ condition ++ " " ++ block) spelled.statement_of_conditional
    (by simp [Keyword.text]) (by simp [Scan.unplaced, word])
  simpa [Stmt.eraseSpans, Stmt.mapSpan, Expr.mapSpan] using parsed

/-- The `else` behind the block is the construct's own, whatever the condition ends with. -/
theorem parse_conditionalElse (text : ConditionText condition value) (braces : BlockText block body)
    (braces' : BlockText other body') :
    ∃ program, Program.parse ("if " ++ condition ++ " " ++ block ++ " else " ++ other) =
        .ok program ∧
      program.eraseSpans = ⟨[.expr (.conditional value.eraseSpans body.eraseSpans
        (some body'.eraseSpans) (.point 0)) (.point 0)]⟩ := by
  have row := (Scan.Row.single (Scan.reads_word .ifWord)).append (text.row.append
    (braces.row.append ((Scan.Row.single (Scan.reads_word .elseWord)).append braces'.row)))
  have otherwise := braces'.spells [.unplaced .endOfInput]
  have branch := braces.spells
    (word .elseWord :: (Scan.unplaced other.toList ++ [.unplaced .endOfInput]))
  have plain : Lookahead.currentClass (Scan.unplaced other.toList) ≠ .keyword .ifWord := by
    have opens := otherwise.first_class rfl []
    simp only [List.append_nil, Phrase.first, beq_iff_eq] at opens
    simp [opens]
  have spelled : Spells (.conditional true _) (word .ifWord :: _) _ :=
    .conditionalElse (text.spells branch.closing_of_block) .nil (.braced branch) .nil
      (.alternative .nil (.braced otherwise) plain)
  have parsed := row.parse ("if " ++ condition ++ " " ++ block ++ " else " ++ other)
    spelled.statement_of_conditional (by simp [Keyword.text])
    (by simp [Scan.unplaced, word, Token.unplaced])
  simpa [Stmt.eraseSpans, Stmt.mapSpan, Expr.mapSpan] using parsed

theorem parse_forEach (text : ConditionText condition value) (braces : BlockText block body)
    (named : Scan.Reads binding.toList (.identifier name)) :
    ∃ program, Program.parse ("for " ++ binding ++ " in " ++ condition ++ " " ++ block) =
        .ok program ∧
      program.eraseSpans = ⟨[.forEach name value.eraseSpans body.eraseSpans (.point 0)]⟩ := by
  have row := (Scan.Row.single (Scan.reads_word .forWord)).append ((Scan.Row.single named).append
    ((Scan.Row.single (Scan.reads_word .inWord)).append (text.row.append braces.row)))
  have branch := braces.spells [.unplaced .endOfInput]
  have spelled : Spells _ (word .forWord :: Writing.name name :: word .inWord :: _) _ :=
    .forEach (text.spells branch.closing_of_block) branch
  have parsed := row.parse ("for " ++ binding ++ " in " ++ condition ++ " " ++ block) spelled
    (by simp [Keyword.text]) (by simp [Scan.unplaced, word, Writing.name])
  simpa [Stmt.eraseSpans, Stmt.mapSpan, Expr.mapSpan] using parsed

end ConditionText

/-- The brace behind a condition belongs to the construct. A text that is an expression alone,
and in which no call takes a block outside of all brackets, is the condition of an `if` or the
iterable of a `for` when a block follows it, and the block is the branch or the body. An `else`
behind the block is never one of the condition's own. -/
theorem Program.parse_brace_behind_condition (condition block binding name : String)
    (value : Expr) (body : Block) (text : ConditionText condition value)
    (braces : BlockText block body) (named : Scan.Reads binding.toList (.identifier name)) :
    (∃ program, Program.parse ("if " ++ condition ++ " " ++ block) = .ok program ∧
      program.eraseSpans = ⟨[.expr (.conditional value.eraseSpans body.eraseSpans none (.point 0))
        (.point 0)]⟩) ∧
    (∃ program, Program.parse ("if " ++ condition ++ " " ++ block ++ " else " ++ block) =
        .ok program ∧
      program.eraseSpans = ⟨[.expr (.conditional value.eraseSpans body.eraseSpans
        (some body.eraseSpans) (.point 0)) (.point 0)]⟩) ∧
    ∃ program, Program.parse ("for " ++ binding ++ " in " ++ condition ++ " " ++ block) =
        .ok program ∧
      program.eraseSpans = ⟨[.forEach name value.eraseSpans body.eraseSpans (.point 0)]⟩ :=
  ⟨text.parse_conditional braces, text.parse_conditionalElse braces braces,
    text.parse_forEach braces named⟩

/-- With an `if` as the condition, in whose block a call takes a block. -/
theorem Program.parse_brace_behind_condition_if :
    let condition := "if a { f() { } }"
    let block := "{ x }"
    ∃ value body, ConditionText condition value ∧ BlockText block body ∧
      Scan.Reads "i".toList (.identifier "i") ∧
      (∃ program, Program.parse ("if " ++ condition ++ " " ++ block) = .ok program ∧
        program.eraseSpans = ⟨[.expr (.conditional value.eraseSpans body.eraseSpans none
          (.point 0)) (.point 0)]⟩) ∧
      (∃ program, Program.parse ("if " ++ condition ++ " " ++ block ++ " else " ++ block) =
          .ok program ∧
        program.eraseSpans = ⟨[.expr (.conditional value.eraseSpans body.eraseSpans
          (some body.eraseSpans) (.point 0)) (.point 0)]⟩) ∧
      ∃ program, Program.parse ("for " ++ "i" ++ " in " ++ condition ++ " " ++ block) =
          .ok program ∧
        program.eraseSpans = ⟨[.forEach "i" value.eraseSpans body.eraseSpans (.point 0)]⟩ := by
  have scanned : Token.scan "if a { f() { } }" = .ok [⟨.keyword .ifWord, ⟨0, 2⟩⟩,
      ⟨.identifier "a", ⟨3, 4⟩⟩, ⟨.punctuation .leftBrace, ⟨5, 6⟩⟩, ⟨.identifier "f", ⟨7, 8⟩⟩,
      ⟨.punctuation .leftParen, ⟨8, 9⟩⟩, ⟨.punctuation .rightParen, ⟨9, 10⟩⟩,
      ⟨.punctuation .leftBrace, ⟨11, 12⟩⟩, ⟨.punctuation .rightBrace, ⟨13, 14⟩⟩,
      ⟨.punctuation .rightBrace, ⟨15, 16⟩⟩, ⟨.endOfInput, ⟨16, 16⟩⟩] := by cbv
  have parsed : Program.parse "if a { f() { } }" = .ok ⟨[.expr (.conditional
      (.identifier "a" ⟨3, 4⟩) (.mk [.expr (.call (.identifier "f" ⟨7, 8⟩)
        [.trailingBlock (.mk [] true ⟨11, 14⟩) ⟨11, 14⟩] ⟨7, 14⟩) ⟨7, 14⟩] false ⟨5, 16⟩) none
      ⟨0, 16⟩) ⟨0, 16⟩]⟩ := by
    rw [Program.parse, scanned]
    cbv
  have bracketed : ∀ tokens, Token.scan "if a { f() { } }" = .ok tokens →
      BlocksBracketed tokens := by
    intro tokens scanned' program parsed body span member
    have same := Except.ok.inj (scanned.symm.trans scanned')
    have numbers : Program.ofTokens (numbered tokens) = .ok ⟨[.expr (.conditional
        (.identifier "a" ⟨1, 2⟩) (.mk [.expr (.call (.identifier "f" ⟨3, 4⟩)
          [.trailingBlock (.mk [] true ⟨6, 8⟩) ⟨6, 8⟩] ⟨3, 8⟩) ⟨3, 8⟩] false ⟨2, 9⟩) none
        ⟨0, 9⟩) ⟨0, 9⟩]⟩ := by
      rw [← same]
      cbv
    obtain rfl := Except.ok.inj (numbers.symm.trans parsed)
    have found : body = .mk [] true ⟨6, 8⟩ ∧ span = ⟨6, 8⟩ := by
      simpa [Program.nodes, Stmt.nodes, Stmt.inner, Expr.nodes, Expr.inner, Block.nodes]
        using member
    rw [found.2, ← same]
    decide
  have text : ConditionText "if a { f() { } }" _ :=
    ⟨⟨.keyword .ifWord, by cbv, by simp⟩, ⟨.punctuation .rightBrace, by cbv, by simp⟩,
      ⟨_, parsed⟩, bracketed⟩
  have braces : BlockText "{ x }"
      (.mk [.expr (.identifier "x" ⟨2, 3⟩) ⟨2, 3⟩] false ⟨0, 5⟩) :=
    ⟨by cbv, by cbv, ⟨0, 5⟩, ⟨0, 5⟩, by cbv⟩
  have named : Scan.Reads "i".toList (.identifier "i") := ⟨_, _, rfl, by cbv⟩
  exact ⟨_, _, text, braces, named,
    Program.parse_brace_behind_condition _ _ _ _ _ _ text braces named⟩

end PixelScript
