import PixelScript.Proofs.Syntax.Shape
import PixelScript.Proofs.Syntax.Standalone
import PixelScript.Proofs.Token.Cutting

/-! The text of a node is a program. Every statement and every expression of a parsed
program, blocks behind calls apart, covers a part of the text that parses to it alone,
whatever stood around it. -/
namespace PixelScript

/-- None of the tokens is the end of input. -/
def Inside (tokens : List Token) : Prop :=
  ∀ token ∈ tokens, token.kind ≠ .endOfInput

namespace Inside

theorem nil : Inside [] := by
  intro token member
  contradiction

theorem append (left : Inside s) (right : Inside t) : Inside (s ++ t) :=
  List.forall_mem_append.mpr ⟨left, right⟩

theorem cons (first : (kind.toClass == .endOfInput) = false) (more : Inside tokens) :
    Inside (⟨kind, span⟩ :: tokens) := by
  refine List.forall_mem_cons.mpr ⟨?_, more⟩
  rintro rfl
  contradiction

end Inside

theorem Newlines.inside (newlines : Newlines n) : Inside n := by
  intro token member isEnd
  have isNewline := newlines token member
  simp [Lookahead.isNewline, isEnd, TokenKind.toClass] at isNewline

theorem ParameterNames.inside (names : ParameterNames params p) : Inside p := by
  induction names with
  | one => exact .cons rfl .nil
  | more _ ih => exact .cons rfl (.cons rfl ih)

theorem Parameters.inside (parameters : Parameters params p) : Inside p := by
  cases parameters with
  | none => exact .nil
  | some names => exact names.inside

/-- No phrase takes the end of input. -/
theorem Spells.inside (spelled : Spells phrase s rest) : Inside s := by
  induction spelled with
  | expression _ _ head tail | call _ _ head tail | suffixesCall _ _ head tail =>
    exact head.append tail
  | operationsEnd | suffixesEnd | statementsEnd => exact .nil
  | operationsMore operator? _ _ head tail =>
    exact .cons (by rw [operator_class operator?]; rfl) (head.append tail)
  | suffixesMethod _ _ head tail => exact .cons rfl (.cons rfl (head.append tail))
  | suffixesBlock _ _ inner | primaryConditional _ inner | primaryBlock _ inner
  | primaryFunction _ inner | primaryParenthesized _ _ inner | braced _ inner | bare _ _ inner
  | alternativeConditional _ inner | expressionStatement _ _ inner => exact inner
  | arguments newlines _ tail => exact .cons rfl (newlines.inside.append tail)
  | argumentsNone | number | string | trueWord | falseWord | nullWord | identifier =>
    exact .cons rfl .nil
  | argumentsLast _ newlines head =>
    exact head.append (newlines.inside.append (.cons rfl .nil))
  | argumentsMore _ newlines newlines' _ head tail =>
    exact head.append (newlines.inside.append (.cons rfl (newlines'.inside.append tail)))
  | parenthesized newlines _ newlines' inner =>
    exact .cons rfl (newlines.inside.append
      (inner.append (newlines'.inside.append (.cons rfl .nil))))
  | function parameters newlines _ inner =>
    exact .cons rfl (parameters.inside.append
      (.cons rfl (.cons rfl (newlines.inside.append inner))))
  | conditional _ newlines _ _ condition branch =>
    exact .cons rfl (condition.append (newlines.inside.append branch))
  | conditionalElse _ newlines _ newlines' _ condition branch other =>
    exact .cons rfl (condition.append (newlines.inside.append
      (branch.append (newlines'.inside.append (.cons rfl other)))))
  | alternative newlines _ _ inner => exact newlines.inside.append inner
  | block newlines _ inner =>
    exact .cons rfl (newlines.inside.append (inner.append (.cons rfl .nil)))
  | statementsMore _ newlines _ head tail => exact head.append (newlines.inside.append tail)
  | declare _ inner => exact .cons rfl (.cons rfl (.cons rfl inner))
  | assign _ inner => exact .cons rfl (.cons rfl inner)
  | forEach _ _ head tail => exact .cons rfl (.cons rfl (.cons rfl (head.append tail)))

theorem Program.parse_eq_ok_iff :
    Program.parse source = .ok program ↔
      ∃ tokens, Scans 0 source.toList tokens ∧ Program.ofTokens tokens = .ok program := by
  unfold Program.parse Token.scan
  constructor
  · intro parsed
    split at parsed
    next tokens scanned => exact ⟨tokens, Scan.tokensFrom_eq_ok_iff.mp scanned, parsed⟩
    next => contradiction
  · rintro ⟨tokens, scans, parsed⟩
    rw [Scan.tokensFrom_eq_ok_iff.mpr scans]
    exact parsed

theorem Program.isShaped_of_parse {program : Program}
    (parsed : Program.parse source = .ok program) : program.isShaped = true := by
  obtain ⟨tokens, _, parsed⟩ := Program.parse_eq_ok_iff.mp parsed
  obtain ⟨n, s, rest, _, _, spelled⟩ := Program.ofTokens_eq_ok_iff.mp parsed
  exact spelled.isShaped

/-- A statement in front of the end of input is a program. -/
theorem Spells.ofTokens (spelled : Spells (.statement stmt) s [finish])
    (isEnd : finish.kind = .endOfInput) : Program.ofTokens (s ++ [finish]) = .ok ⟨[stmt]⟩ := by
  have ends : Lookahead.endsStatements false [finish] = true := by
    simp [Lookahead.endsStatements, isEnd, TokenKind.toClass]
  have whole := Spells.statementsMore (n := []) spelled .nil (.statementsEnd ends)
  rw [List.append_nil, List.append_nil] at whole
  exact Program.ofTokens_eq_ok_iff.mpr ⟨[], s, [finish], .nil, rfl, whole⟩

/-- Tokens that are moved spell a statement that is moved as far. -/
theorem Spells.statement_shiftDown
    (spelled : Spells (.statement stmt) (s.map (Token.mapSpan (Span.shiftUp distance)))
      (rest.map (Token.mapSpan (Span.shiftUp distance)))) :
    ∃ stmt', Spells (.statement stmt') s rest ∧ stmt'.mapSpan (Span.shiftUp distance) = stmt := by
  have back :
      Token.mapSpan (Span.shiftDown distance) ∘ Token.mapSpan (Span.shiftUp distance) = id :=
    funext fun token => by simp [Token.mapSpan]
  have down := spelled.mapSpan (Span.shiftDown_mergeHom distance)
  rw [List.map_map, List.map_map, back, List.map_id, List.map_id] at down
  -- moving up again must give the statement that the tokens spelled at first
  have up := down.mapSpan (Span.shiftUp_mergeHom distance)
  exact ⟨_, down, up.statement_unique spelled⟩

/-- Neighbouring tokens of a text are, at offsets from the first, those of the text between. -/
theorem Scans.part {segment after : List Token}
    (scans : Scans 0 text (before ++ (segment ++ after)))
    (covers : Covers segment span) (more : after ≠ [])
    (bound : Text.byteLength text ≤ Span.maxOffset) :
    ∃ part tokens finish, span.slice? text = some part ∧ part ≠ [] ∧
      Scans 0 part (tokens ++ [finish]) ∧ finish.kind = .endOfInput ∧
      tokens.map (Token.mapSpan (Span.shiftUp span.start)) = segment := by
  obtain ⟨first, last, isFirst, isLast, rfl⟩ := covers
  obtain ⟨later, rfl⟩ := List.head?_eq_some_iff.mp isFirst
  obtain ⟨front, back, rfl, start, resumed⟩ := scans.resumes
  obtain ⟨part, back, last', finish, rfl, isLast', stop, isEnd, short⟩ :=
    Scans.cut (List.cons_ne_nil first later) more resumed
  obtain rfl := Option.some.inj (isLast.symm.trans isLast')
  simp only [Text.byteLength_append] at bound
  have offset : 0 + Text.byteLength front = first.span.start + 0 := by omega
  obtain ⟨all, alone, moved⟩ := short.earlier offset (by omega)
  obtain ⟨tokens, ending, rfl, movedTokens, movedEnd⟩ := List.map_eq_append_iff.mp moved
  obtain ⟨finish, rfl, rfl⟩ := List.map_eq_singleton_iff.mp movedEnd
  refine ⟨part, tokens, finish, ?_, ?_, alone, isEnd, movedTokens⟩
  · have starts : first.span.start = Text.byteLength front := by omega
    have stops : last.span.stop = Text.byteLength front + Text.byteLength part := by omega
    rw [Span.slice?, starts, stops]
    exact Text.slice_append front part back
  · -- a text without characters has no token but the end of input
    rintro rfl
    cases tokens with
    | nil => contradiction
    | cons token tokens =>
      generalize same : token :: tokens ++ [finish] = list at alone
      cases alone
      simp at same

/-- The text that a node covers parses to the node alone. Its spans count from the start
of that text, so those of the node are that much later. -/
theorem Program.parse_node_text {source : String} {program : Program} {node : Node}
    (bound : Text.byteLength source.toList ≤ Span.maxOffset)
    (parsed : Program.parse source = .ok program) (member : node ∈ program.nodes)
    (plain : node.isTrailingBlock = false) :
    ∃ part stmt, node.span.slice? source.toList = some part ∧ part ≠ [] ∧
      Program.parse (String.ofList part) = .ok ⟨[stmt]⟩ ∧
      stmt.mapSpan (Span.shiftUp node.span.start) = node.toStmt := by
  obtain ⟨tokens, scans, parsed⟩ := Program.parse_eq_ok_iff.mp parsed
  obtain ⟨n, s, rest, newlines, rfl, spelled⟩ := Program.ofTokens_eq_ok_iff.mp parsed
  obtain ⟨before, segment, after, rfl, alone⟩ := spelled.inner node member plain
  have reordered : Scans 0 source.toList ((n ++ before) ++ (segment ++ (after ++ rest))) := by
    simpa only [List.append_assoc] using scans
  have covers : Covers segment node.span := by
    have extent := (alone [] rfl).extent reordered.ordered.right.left
    rwa [Node.span_toStmt] at extent
  have more : after ++ rest ≠ [] := by
    -- the last token is the end of input, which neither newlines nor statements take
    intro none
    obtain ⟨rfl, rfl⟩ := List.append_eq_nil_iff.mp none
    obtain ⟨front, all⟩ := scans.exists_end
    rw [List.append_nil] at all
    have inside := newlines.inside.append spelled.inside
    rw [all] at inside
    exact inside _ (List.mem_append_right front List.mem_cons_self) rfl
  obtain ⟨part, tokens, finish, sliced, nonempty, short, isEnd, rfl⟩ :=
    reordered.part covers more bound
  have placed := alone ([finish].map (Token.mapSpan (Span.shiftUp node.span.start)))
    (by simp [Token.mapSpan, isEnd, TokenKind.toClass])
  obtain ⟨stmt, shifted, same⟩ := placed.statement_shiftDown
  have reparsed : Program.parse (String.ofList part) = .ok ⟨[stmt]⟩ := by
    refine Program.parse_eq_ok_iff.mpr ⟨_, ?_, shifted.ofTokens isEnd⟩
    rwa [String.toList_ofList]
  exact ⟨part, stmt, sliced, nonempty, reparsed, same⟩

/-- A call as a condition, where it takes no block, is read alone in the same way. -/
theorem Program.parse_condition_text :
    let source := "if f(x) \x7b y \x7d"
    let call : Expr := .call (.identifier "f" ⟨3, 4⟩) [.identifier "x" ⟨5, 6⟩] ⟨3, 7⟩
    let branch : Block := .mk [.expr (.identifier "y" ⟨10, 11⟩) ⟨10, 11⟩] false ⟨8, 13⟩
    let program : Program := ⟨[.expr (.conditional call branch none ⟨0, 13⟩) ⟨0, 13⟩]⟩
    Program.parse source = .ok program ∧ .expr call ∈ program.nodes ∧
      ∃ part stmt, call.span.slice? source.toList = some part ∧ part ≠ [] ∧
        Program.parse (String.ofList part) = .ok ⟨[stmt]⟩ ∧
        stmt.mapSpan (Span.shiftUp 3) = .expr call ⟨3, 7⟩ := by
  intro source call branch program
  have parsed : Program.parse source = .ok program := by cbv
  have member : .expr call ∈ program.nodes := .tail _ (.tail _ (.head _))
  exact ⟨parsed, member, Program.parse_node_text (by decide) parsed member rfl⟩

end PixelScript
