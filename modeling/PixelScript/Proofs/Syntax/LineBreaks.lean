import PixelScript.Proofs.Syntax.Insertion

/-! Where lines may be broken. At some places of a program the parser skips newlines, and
there any number of them may be added: the program stays the same. The places are those
where a goal that the parser reaches has taken its front and skips the newlines that follow.

One place is not among them. Behind `else`, an `if` on the same line continues the chain of
conditions, while an `if` on a later line starts a branch, which is an expression and takes
operators and suffixes behind the last brace with it. -/
namespace PixelScript
open Grammar

/-- `Pauses goal front left`: the goal, read from `front ++ left`, takes `front` and skips
newlines before it goes on with `left`. -/
inductive Pauses : Goal → List Token → List Token → Prop
  /-- Before the statements of a block. -/
  | block (newlines : Newlines n) :
      Pauses (.block isFunctionBody) (⟨.punctuation .leftBrace, start⟩ :: n) left
  /-- Behind a statement, of a block or of the program. -/
  | statement (head : Spells (.statement first) s (n ++ left)) (newlines : Newlines n) :
      Pauses (.statements inBlock) (s ++ n) left
  /-- Behind the opening parenthesis of an argument list. -/
  | arguments (newlines : Newlines n) :
      Pauses .arguments (⟨.punctuation .leftParen, start⟩ :: n) left
  /-- Behind an argument, before a comma or the closing parenthesis. -/
  | argument (head : Spells (.expression true first) s (n ++ left)) (newlines : Newlines n) :
      Pauses .argumentsTail (s ++ n) left
  /-- Behind the comma of an argument. -/
  | comma
      (head : Spells (.expression true first) s
        (n ++ ⟨.punctuation .comma, comma⟩ :: (m ++ left)))
      (newlines : Newlines n) (newlines' : Newlines m) :
      Pauses .argumentsTail (s ++ (n ++ ⟨.punctuation .comma, comma⟩ :: m)) left
  /-- Behind an opening parenthesis. -/
  | parenthesis (newlines : Newlines n) :
      Pauses .parenthesized (⟨.punctuation .leftParen, start⟩ :: n) left
  /-- Before a closing parenthesis. -/
  | parenthesized (newlines : Newlines n)
      (inner : Spells (.expression true value) s (m ++ left)) (newlines' : Newlines m) :
      Pauses .parenthesized (⟨.punctuation .leftParen, start⟩ :: (n ++ (s ++ m))) left
  /-- Behind the arrow of a function. -/
  | arrow (parameters : Parameters params p) (newlines : Newlines n) :
      Pauses (.function trailing)
        (⟨.punctuation .leftParen, start⟩ :: (p ++ ⟨.punctuation .rightParen, close⟩ ::
          ⟨.punctuation .arrow, arrow⟩ :: n)) left
  /-- Behind a condition, before its branch. -/
  | condition (condition : Spells (.expression false test) s (n ++ left))
      (newlines : Newlines n) :
      Pauses (.conditional trailing) (⟨.keyword .ifWord, start⟩ :: (s ++ n)) left
  /-- Before an `else`. -/
  | branch (condition : Spells (.expression false test) s (n ++ (t ++ (m ++ left))))
      (newlines : Newlines n)
      (branch : Spells (.blockOrExpression trailing false thenBranch) t (m ++ left))
      (newlines' : Newlines m) (found : Lookahead.elseAhead left = true) :
      Pauses (.conditional trailing) (⟨.keyword .ifWord, start⟩ :: (s ++ (n ++ (t ++ m)))) left
  /-- Behind an `else`, unless an `if` follows on the same line. -/
  | otherwise
      (condition : Spells (.expression false test) s
        (n ++ (t ++ (m ++ ⟨.keyword .elseWord, word⟩ :: (k ++ left)))))
      (newlines : Newlines n)
      (branch : Spells (.blockOrExpression trailing false thenBranch) t
        (m ++ ⟨.keyword .elseWord, word⟩ :: (k ++ left)))
      (newlines' : Newlines m) (between : Newlines k)
      (plain : Lookahead.currentClass (k ++ left) ≠ .keyword .ifWord) :
      Pauses (.conditional trailing) (⟨.keyword .ifWord, start⟩ ::
        (s ++ (n ++ (t ++ (m ++ ⟨.keyword .elseWord, word⟩ :: k))))) left

/-- `Breakable tokens left`: between the tokens, where `left` remains, newlines may be added. -/
inductive Breakable (tokens : List Token) : List Token → Prop
  | start (newlines : Newlines n) (split : tokens = n ++ left) : Breakable tokens left
  | pause (reached : Reaches tokens goal (front ++ left)) (pauses : Pauses goal front left) :
      Breakable tokens left

/-- `Loosened tokens left left'`: newlines added to `left` at places of `tokens` make
`left'` of it. -/
inductive Loosened (tokens : List Token) : List Token → List Token → Prop
  | nil : Loosened tokens [] []
  | keep (token : Token) (later : Loosened tokens left left') :
      Loosened tokens (token :: left) (token :: left')
  | add (line : Span) (place : Breakable tokens left) (later : Loosened tokens left left') :
      Loosened tokens left (⟨.newline, line⟩ :: left')

/-- `Unchained tokens tokens'`: a newline added behind an `else` that has an `if` on the same
line makes `tokens'` of `tokens`, where neither an operator nor a suffix follows the
conditional that begins with this `if`. -/
inductive Unchained : List Token → List Token → Prop
  | mk (line : Span) (reached : Reaches (taken ++ (s ++ rest)) (.alternative trailing) (s ++ rest))
      (nested : Spells (.conditional trailing value) s rest)
      (ends : (Lookahead.current rest).kind.operator? = none)
      (ends' : Lookahead.endsSuffixes trailing value rest = true) :
      Unchained (taken ++ (s ++ rest)) (taken ++ ⟨.newline, line⟩ :: (s ++ rest))

variable {old new : List Token} {trailing : Bool} {program : Program}

theorem Newlines.dropWhile_insert (newlines : Newlines n) (line : Span) (left : List Token) :
    (n ++ ⟨.newline, line⟩ :: left).dropWhile Lookahead.isNewline =
      (n ++ left).dropWhile Lookahead.isNewline := by
  rw [List.dropWhile_append_of_pos newlines, List.dropWhile_append_of_pos newlines]
  rfl

theorem Lookahead.exists_else (found : Lookahead.elseAhead tokens = true) :
    ∃ n word rest, Newlines n ∧ tokens = n ++ ⟨.keyword .elseWord, word⟩ :: rest := by
  obtain ⟨n, newlines, split⟩ := exists_newlines tokens
  obtain ⟨word, rest, same⟩ := exists_keyword (beq_iff_eq.mp found)
  exact ⟨n, word, rest, newlines, same ▸ split⟩

theorem Grammar.alternative_branch {later : List Token}
    (plain : Lookahead.currentClass later ≠ .keyword .ifWord) :
    Grammar.alternative (fuel + 1) trailing later =
      (do
        skipNewlines
        blockOrExpression fuel trailing false : Parser Block) later := by
  rw [alternative]
  change (if Lookahead.currentClass later = .keyword .ifWord then _ else _ :
    Parser Block) later = _
  rw [if_neg plain]

theorem Inserts.currentClass_ne (inserts : Inserts old new) (other : next ≠ .newline)
    (differs : Lookahead.currentClass old ≠ next) : Lookahead.currentClass new ≠ next := by
  cases inserts with
  | here => exact other.symm
  | later => exact differs

namespace Pauses

theorem currentClass_eq (pauses : Pauses goal front old) (new : List Token) :
    Lookahead.currentClass (front ++ new) = Lookahead.currentClass (front ++ old) := by
  cases pauses with
  | statement head | argument head | comma head =>
    simp only [List.append_assoc, head.currentClass_append rfl]
  | _ => rfl

theorem admits (pauses : Pauses goal front old) (new : List Token) :
    goal.Admits (front ++ new) := by
  cases pauses with
  | arrow parameters =>
    simp only [List.cons_append, List.append_assoc]
    exact ⟨rfl, Lookahead.isFunctionHead_iff.mpr ⟨_, _, _, _, _, _, parameters, rfl⟩⟩
  | _ => trivial

/-- A place stays one when there are more newlines further on. -/
theorem inserts (pauses : Pauses goal front old) (inserts : Inserts old new) :
    Pauses goal front new := by
  cases pauses with
  | block newlines => exact .block newlines
  | statement head newlines => exact .statement (head.inserts (inserts.append _) rfl) newlines
  | arguments newlines => exact .arguments newlines
  | argument head newlines => exact .argument (head.inserts (inserts.append _) rfl) newlines
  | comma head newlines newlines' =>
    exact .comma (head.inserts (((inserts.append _).later _).append _) rfl) newlines newlines'
  | parenthesis newlines => exact .parenthesis newlines
  | parenthesized newlines inner newlines' =>
    exact .parenthesized newlines (inner.inserts (inserts.append _) rfl) newlines'
  | arrow parameters newlines => exact .arrow parameters newlines
  | condition condition newlines =>
    exact .condition (condition.inserts (inserts.append _) rfl) newlines
  | branch condition newlines branch newlines' found =>
    exact .branch (condition.inserts (((inserts.append _).append _).append _) rfl) newlines
      (branch.inserts (inserts.append _) rfl) newlines' (inserts.elseAhead.trans found)
  | @otherwise _ _ _ _ m k _ _ _ _ word condition newlines branch newlines' between plain =>
    have inserts' := ((inserts.append k).later ⟨.keyword .elseWord, word⟩).append m
    exact .otherwise (condition.inserts ((inserts'.append _).append _) rfl) newlines
      (branch.inserts inserts' rfl) newlines' between
      ((inserts.append k).currentClass_ne (by simp) plain)

/-- Where newlines are skipped, one more makes no difference. -/
theorem agrees (pauses : Pauses goal front left) (line : Span) :
    goal.Agrees (front ++ left) (front ++ ⟨.newline, line⟩ :: left) := by
  have inserts := Inserts.here line left
  cases pauses with
  | block newlines =>
    refine .succ ?_
    simp only [Grammar.block]
    exact .past rfl rfl (.skip (newlines.dropWhile_insert line left))
  | statement head newlines =>
    have goesOn := head.goes_on
    simp only [List.append_assoc]
    refine .step (fun _ => statements_open (goesOn _ _)) (fun _ => statements_open (goesOn _ _)) ?_
    refine .behind ⟨_, head.complete⟩ ⟨_, (head.inserts (inserts.append _) rfl).complete⟩ ?_
    exact .skip (newlines.dropWhile_insert line left)
  | arguments newlines =>
    refine .succ ?_
    simp only [Grammar.arguments]
    exact .past rfl rfl (.skip (newlines.dropWhile_insert line left))
  | argument head newlines =>
    simp only [List.append_assoc]
    exact .argument head (inserts.append _) (.skip (newlines.dropWhile_insert line left))
  | comma head newlines newlines' =>
    simp only [List.append_assoc, List.cons_append]
    exact .comma head newlines (inserts.append _) (.skip (newlines'.dropWhile_insert line left))
  | parenthesis newlines =>
    refine .succ ?_
    simp only [Grammar.parenthesized]
    exact .past rfl rfl (.skip (newlines.dropWhile_insert line left))
  | parenthesized newlines inner newlines' =>
    have next := inner.next_ne_newline rfl rfl
    refine .succ ?_
    simp only [Grammar.parenthesized, List.cons_append, List.append_assoc]
    refine .past rfl rfl (.pass newlines (next _) (next _) ?_)
    refine .behind ⟨_, inner.complete⟩ ⟨_, (inner.inserts (inserts.append _) rfl).complete⟩ ?_
    exact .skip (newlines'.dropWhile_insert line left)
  | arrow parameters newlines =>
    refine .succ ?_
    simp only [Grammar.function, List.cons_append, List.append_assoc]
    exact .past rfl rfl (.past (parameters_ok parameters) (parameters_ok parameters)
      (.past rfl rfl (.past rfl rfl (.skip (newlines.dropWhile_insert line left)))))
  | condition condition newlines =>
    refine .succ ?_
    simp only [Grammar.conditional, List.cons_append, List.append_assoc]
    refine .past rfl rfl (.behind ⟨_, condition.complete⟩
      ⟨_, (condition.inserts (inserts.append _) rfl).complete⟩ ?_)
    exact .skip (newlines.dropWhile_insert line left)
  | @branch _ _ _ _ m _ _ _ _ condition newlines branch newlines' found =>
    obtain ⟨k, word, rest, between, rfl⟩ := Lookahead.exists_else found
    have next := branch.next_ne_newline rfl rfl
    refine .succ ?_
    simp only [Grammar.conditional, List.cons_append, List.append_assoc]
    refine .past rfl rfl (.behind ⟨_, condition.complete⟩
      ⟨_, (condition.inserts (((inserts.append _).append _).append _) rfl).complete⟩ ?_)
    refine .pass newlines (next _) (next _) ?_
    refine .behind ⟨_, branch.complete⟩ ⟨_, (branch.inserts (inserts.append _) rfl).complete⟩ ?_
    have further : Newlines (⟨.newline, line⟩ :: k) := List.forall_mem_cons.mpr ⟨rfl, between⟩
    exact .past
      (takeElse_ok.mpr (.inl ⟨rfl, _, _, List.forall_mem_append.mpr ⟨newlines', between⟩,
        (List.append_assoc ..).symm⟩))
      (takeElse_ok.mpr (.inl ⟨rfl, _, _, List.forall_mem_append.mpr ⟨newlines', further⟩,
        (List.append_assoc m (_ :: k) _).symm⟩)) (.refl _)
  | @otherwise _ _ _ _ _ k _ trailing _ _ _ condition newlines branch newlines' between plain =>
    have plain' := (inserts.append k).currentClass_ne (by simp) plain
    have agrees : (Goal.alternative trailing).Agrees (k ++ left) (k ++ ⟨.newline, line⟩ :: left) :=
      .step (fun _ => alternative_branch plain) (fun _ => alternative_branch plain')
        (.skip (between.dropWhile_insert line left))
    simpa using agrees.conditional (inserts.append k) condition newlines branch newlines'

end Pauses

namespace Breakable

/-- A newline at such a place leaves the program as it is. -/
theorem ofTokens_insert (place : Breakable (taken ++ left) left) (line : Span)
    (parsed : Program.ofTokens (taken ++ left) = .ok program) :
    Program.ofTokens (taken ++ ⟨.newline, line⟩ :: left) = .ok program := by
  cases place with
  | start newlines split =>
    obtain rfl := List.append_cancel_right split
    obtain ⟨m, s, rest, newlines', same, spelled⟩ := Program.ofTokens_eq_ok_iff.mp parsed
    have dropped := newlines.dropWhile_insert line left
    rw [same, newlines'.dropWhile_append spelled.statements_next] at dropped
    obtain ⟨k, between, split⟩ := exists_newlines (taken ++ ⟨.newline, line⟩ :: left)
    exact Program.ofTokens_eq_ok_iff.mpr ⟨k, s, rest, between, dropped ▸ split, spelled⟩
  | @pause goal front _ reached pauses =>
    obtain ⟨before, split, further⟩ := reached.inserts
    obtain rfl : taken = before ++ front := List.append_cancel_right (split.trans (by simp))
    have kept := (further _ ((Inserts.here line left).append front) (pauses.currentClass_eq _)
      (pauses.admits _)).2 (pauses.agrees line) program parsed
    rwa [List.append_assoc]

/-- Places stay when there are more newlines behind them. -/
theorem inserts (place : Breakable (taken ++ old) old) (inserts : Inserts old new) :
    Breakable (taken ++ new) new := by
  cases place with
  | start newlines split => exact .start (List.append_cancel_right split ▸ newlines) rfl
  | @pause goal front _ reached pauses =>
    obtain ⟨before, split, further⟩ := reached.inserts
    obtain rfl : taken = before ++ front := List.append_cancel_right (split.trans (by simp))
    obtain ⟨reached', _⟩ := further _ (inserts.append front) (pauses.currentClass_eq _)
      (pauses.admits _)
    rw [List.append_assoc]
    exact .pause reached' (pauses.inserts inserts)

end Breakable

namespace Loosened

/-- Added from the right to the left, newlines meet the places that are still to come
unchanged. -/
theorem ofTokens_taken (loosened : Loosened tokens left left')
    (parsed : Program.ofTokens tokens = .ok program) (taken : List Token)
    (split : tokens = taken ++ left) :
    Program.ofTokens (taken ++ left') = .ok program ∧
      ∀ before front, taken = before ++ front → Breakable tokens (front ++ left) →
        Breakable (taken ++ left') (front ++ left') := by
  induction loosened generalizing taken with
  | nil =>
    subst split
    exact ⟨parsed, fun _ _ _ place => place⟩
  | @keep left left' token _ ih =>
    obtain ⟨kept, places⟩ := ih (taken ++ [token]) (by simpa using split)
    refine ⟨by simpa using kept, fun before front same place => ?_⟩
    have place' := places before (front ++ [token]) (by simp [same]) (by simpa using place)
    simpa using place'
  | @add left left' line place _ ih =>
    obtain ⟨kept, places⟩ := ih taken split
    have here := places taken [] (List.append_nil taken).symm place
    refine ⟨here.ofTokens_insert line kept, fun before front same further => ?_⟩
    have place' := places before front same further
    subst same
    rw [List.append_assoc] at place' ⊢
    exact place'.inserts ((Inserts.here line left').append front)

theorem ofTokens (loosened : Loosened tokens tokens tokens')
    (parsed : Program.ofTokens tokens = .ok program) :
    Program.ofTokens tokens' = .ok program :=
  (loosened.ofTokens_taken parsed [] rfl).1

end Loosened

/-- The nested conditional is read as a branch, and nothing else belongs to it. -/
theorem Unchained.ofTokens (unchained : Unchained tokens tokens')
    (parsed : Program.ofTokens tokens = .ok program) :
    Program.ofTokens tokens' = .ok program := by
  cases unchained with
  | @mk taken s rest trailing value line reached nested ends ends' =>
    have chained : Spells (.alternative trailing (.ofExpr value false)) s rest :=
      .alternativeConditional nested
    have opens := beq_iff_eq.mp (nested.first_class rfl [])
    rw [List.append_nil] at opens
    have inner : Spells (.expression trailing value) s rest := by
      simpa using Spells.expression (t := []) (.call (t := []) (.primaryConditional nested)
        (.suffixesEnd ends')) (.operationsEnd ends)
    have branch : Spells (.alternative trailing (.ofExpr value false)) (⟨.newline, line⟩ :: s)
        rest :=
      .alternative (n := [⟨.newline, line⟩]) (List.forall_mem_singleton.mpr rfl)
        (.bare inner (by simp [opens])) (by simp [TokenKind.toClass])
    have agrees : (Goal.alternative trailing).Agrees (s ++ rest)
        (⟨.newline, line⟩ :: (s ++ rest)) :=
      .settled ⟨_, chained.complete⟩ ⟨_, branch.complete⟩
    have inserts := Inserts.here line (s ++ rest)
    -- Only a conditional whose `else` is taken reads an alternative.
    cases reached with
    | @enter _ front _ _ reached enters =>
      obtain ⟨before, split, further⟩ := reached.inserts
      obtain rfl : taken = before ++ front := List.append_cancel_right (split.trans (by simp))
      rw [List.append_assoc]
      refine (further _ (inserts.append front) ?_ (enters.admits_front _)).2 ?_ program parsed
      · cases enters with
        | otherwise => rfl
      · cases enters with
        | otherwise condition newlines branch newlines' =>
          simpa using agrees.conditional inserts condition newlines branch newlines'

/-- Lines may be broken at all places where newlines are skipped, and in a chain of
conditions wherever nothing follows the rest of the chain: what is read stays the same up
to spans. -/
theorem Program.ofTokens_loosened (parsed : Program.ofTokens tokens = .ok program)
    (added : Loosened tokens tokens tokens' ∨ Unchained tokens tokens')
    (kinds : spelled.map (·.kind) = tokens'.map (·.kind)) :
    ∃ program', Program.ofTokens spelled = .ok program' ∧
      program'.eraseSpans = program.eraseSpans := by
  have kept : Program.ofTokens tokens' = .ok program := by
    rcases added with loosened | unchained
    · exact loosened.ofTokens parsed
    · exact unchained.ofTokens parsed
  exact Program.ofTokens_of_kinds kinds kept

open Writing in
/-- `if a b else c` with newlines before it, behind the condition, on both sides of `else`
and behind the statement. -/
theorem Program.ofTokens_loosened_else :
    let tokens := [word .ifWord, name "a", name "b", word .elseWord, name "c",
      .unplaced .endOfInput]
    let loose := [.unplaced .newline, word .ifWord, name "a", .unplaced .newline, name "b",
      .unplaced .newline, word .elseWord, .unplaced .newline, name "c", .unplaced .newline,
      .unplaced .endOfInput]
    ∃ program, Program.ofTokens tokens = .ok program ∧ Loosened tokens tokens loose ∧
      ∃ program', Program.ofTokens loose = .ok program' ∧
        program'.eraseSpans = program.eraseSpans := by
  intro tokens loose
  let value : Expr := .conditional (.identifier "a" (.point 0))
    (.ofExpr (.identifier "b" (.point 0)) false)
    (some (.ofExpr (.identifier "c" (.point 0)) false)) (.point 0)
  have parsed : Program.ofTokens tokens = .ok ⟨[.expr value (.point 0)]⟩ := rfl
  have operand (text : String) (trailing : Bool) (rest : List Token)
      (ends : (Lookahead.current rest).kind.operator? = none)
      (ends' : Lookahead.endsSuffixes trailing (.identifier text (.point 0)) rest = true) :
      Spells (.expression trailing (.identifier text (.point 0))) [name text] rest :=
    .expression (t := []) (.call (t := []) .identifier (.suffixesEnd ends')) (.operationsEnd ends)
  have condition (later : List Token) := operand "a" false (name "b" :: later) rfl rfl
  have branch (trailing : Bool) (later : List Token) : Spells (.blockOrExpression trailing false
      (.ofExpr (.identifier "b" (.point 0)) false)) [name "b"] (word .elseWord :: later) :=
    .bare (operand "b" trailing _ rfl rfl) (by decide)
  have statements : Reaches tokens (.statements false) tokens := .start
  have statement : Reaches tokens .statement tokens := statements.enter (.statementsHead rfl)
  have conditional : Reaches tokens (.conditional true) tokens :=
    (((statement.enter (.expressionStatement rfl (by decide) (by decide))).enter
      .expressionHead).enter .callHead).enter (.primaryConditional rfl)
  have nested : Spells (.conditional true value)
      [word .ifWord, name "a", name "b", word .elseWord, name "c"] [.unplaced .endOfInput] :=
    @Spells.conditionalElse _ _ [] _ [] _ _ _ _ _ (.point 0) _ (condition _) .nil (branch true _)
      .nil (.alternative (n := []) .nil (.bare (operand "c" true _ rfl rfl) (by decide))
        (by decide))
  have whole := Spells.expressionStatement (.expression (t := []) (.call (t := [])
    (.primaryConditional nested) (.suffixesEnd rfl)) (.operationsEnd rfl)) rfl
  have loosened : Loosened tokens tokens loose :=
    .add _ (.start .nil rfl) <| .keep _ <| .keep _ <|
    .add _ (.pause conditional (.condition (n := []) (condition _) .nil)) <| .keep _ <|
    .add _ (.pause conditional (.branch (n := []) (m := []) (condition _) .nil (branch true _) .nil
      rfl)) <| .keep _ <|
    .add _ (.pause conditional (.otherwise (n := []) (m := []) (k := []) (condition _) .nil
      (branch true _) .nil .nil (by decide))) <| .keep _ <|
    .add _ (.pause statements (.statement (n := []) whole .nil)) <| .keep _ .nil
  exact ⟨_, parsed, loosened, Program.ofTokens_loosened parsed (.inl loosened) rfl⟩

open Writing in
/-- Where an operator follows, a chain of conditions is the operand, unless it is broken
behind `else`: then the operator belongs to the last branch. -/
theorem Program.ofTokens_unchained_operator :
    let front := [word .ifWord, name "a", mark .leftBrace, mark .rightBrace, word .elseWord]
    let left := [word .ifWord, name "b", mark .leftBrace, mark .rightBrace, name "plus", name "c",
      .unplaced .endOfInput]
    ∃ program program', Program.ofTokens (front ++ left) = .ok program ∧
      Program.ofTokens (front ++ .unplaced .newline :: left) = .ok program' ∧
      program'.eraseSpans ≠ program.eraseSpans := by
  intro front left
  let empty : Block := .mk [] false (.point 0)
  let chain (text : String) (elseBranch : Option Block) : Expr :=
    .conditional (.identifier text (.point 0)) empty elseBranch (.point 0)
  let sum (left : Expr) : Expr :=
    .operation "plus" left (.identifier "c" (.point 0)) (.point 0)
  have parsed : Program.ofTokens (front ++ left) = .ok ⟨[.expr
    (sum (chain "a" (some (.ofExpr (chain "b" none) false)))) (.point 0)]⟩ := rfl
  have parsed' : Program.ofTokens (front ++ .unplaced .newline :: left) = .ok ⟨[.expr
    (chain "a" (some (.ofExpr (sum (chain "b" none)) false))) (.point 0)]⟩ := rfl
  refine ⟨_, _, parsed, parsed', ?_⟩
  intro same
  cases same

end PixelScript
