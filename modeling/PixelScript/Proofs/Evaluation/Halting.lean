import PixelScript.Proofs.Evaluation.Ending
import PixelScript.Proofs.Evaluation.Invariance
import PixelScript.Proofs.Syntax.Joining

/-! Scripts without loops end. Nothing but calls of closures can make such a script run long,
and how many of these are under way at once is limited. So the fuel that is needed is that
of the code at hand, and for each call that may still be opened that of the largest body. -/
namespace PixelScript

/-- Whether a node is a loop, or names the function that makes one. -/
def Node.isLoop : Node → Bool
  | .stmt (.forEach ..) => true
  | .expr (.identifier name _) => name == Native.whileLoop.name
  | _ => false

def Loopless (nodes : List Node) : Prop :=
  ∀ node ∈ nodes, node.isLoop = false

/-- Every value but the function that makes loops. -/
abbrev Value.Plain (value : Value) : Prop :=
  value.Leads (fun _ => True) (· ≠ .whileLoop)

/-- Code without loops, and not larger than so much. -/
structure Part.Brief (bound : Nat) (part : Part) : Prop where
  loopless : Loopless part.nodes
  size : part.size ≤ bound

/-- Machines in the course of a script without loops, while so many calls are under way. The
function that makes loops is found under its own name only. -/
structure Machine.Tame (bound depth : Nat) (machine : Machine) : Prop where
  callDepth : machine.callDepth = depth
  holding : machine.Holding (fun _ name value => name ≠ Native.whileLoop.name → value.Plain)
    (fun _ value => value.Plain) fun _ closure => (Part.block closure.body).Brief bound

/-- The fuel that calls from here on may take: for each that may still be opened, that of the
largest body and of the steps into it. -/
def Limits.reserve (limits : Limits) (bound depth : Nat) : Nat :=
  (limits.maxCallDepth - depth) * (bound + 3)

/-- What the steps into a closure leave is enough for its body. -/
theorem Limits.reserve_deeper {limits : Limits} {bound depth size fuel : Nat}
    (below : depth < limits.maxCallDepth) (fits : size ≤ bound)
    (enough : 1 + limits.reserve bound depth < fuel + 1) :
    size + 3 + limits.reserve bound (depth + 1) < fuel := by
  have left : limits.maxCallDepth - depth = limits.maxCallDepth - (depth + 1) + 1 := by omega
  rw [reserve, left, Nat.succ_mul] at enough
  rw [reserve]
  omega

/-- Code without loops, with enough fuel to end. -/
def halting (limits : Limits) (bound : Nat) : Invariant where
  World := Nat
  grown depth later := later = depth
  deeper depth := depth + 1
  limits := limits
  allowed := Part.Brief bound
  natives _ function := function ≠ .whileLoop
  holds := Machine.Tame bound
  shortage := .excluded
  loops := False
  fuels depth weight fuel := weight + limits.reserve bound depth < fuel

variable {bound depth : Nat} {machine machine' : Machine}

theorem Machine.Tame.of_same (tame : machine.Tame bound depth)
    (callDepth : machine'.callDepth = machine.callDepth)
    (frames : machine'.frames = machine.frames) (closures : machine'.closures = machine.closures)
    (methods : machine'.methods = machine.methods) : machine'.Tame bound depth :=
  ⟨callDepth.trans tame.callDepth, tame.holding.of_same frames closures methods⟩

theorem Machine.Tame.bindIn (tame : machine.Tame bound depth) (frame : FrameId) (name : String)
    {value : Value} (plain : value.Plain) : (machine.bindIn frame name value).Tame bound depth :=
  ⟨tame.callDepth, tame.holding.bindIn fun _ => plain⟩

theorem halting_depths (limits : Limits) (bound : Nat) : (halting limits bound).Depths where
  entered _ := trivial
  enter tame := ⟨congrArg Nat.succ tame.callDepth, tame.holding.of_same rfl rfl rfl⟩
  leave {depth _ _} grown tame := by
    obtain rfl := grown
    refine ⟨depth, rfl, fun _ _ => trivial, ?_, tame.holding.of_same rfl rfl rfl⟩
    exact congrArg Nat.pred tame.callDepth

theorem halting_fuels (limits : Limits) (bound : Nat) : (halting limits bound).Fuels where
  grown later enough := by
    obtain rfl := later
    exact enough
  short enough := absurd enough (Nat.not_lt_zero _)
  spend {_ _ less _} enough smaller := by
    -- without loops, only what weighs less is asked for
    obtain smaller | loops := smaller
    · have enough : _ + limits.reserve bound _ < _ := enough
      exact show less + limits.reserve bound _ < _ by omega
    · exact loops.elim
  enter tame below brief enough :=
    Limits.reserve_deeper (tame.callDepth ▸ below) brief.size enough
  whileLoop other := absurd rfl other
  forEach brief := Bool.noConfusion (brief.loopless _ List.mem_cons_self)

theorem halting_lawful (limits : Limits) (bound : Nat) : (halting limits bound).Lawful where
  inherited brief inside :=
    { loopless := fun node among => brief.loopless node (Part.nodes_of_mem_children inside among)
      size := (Part.size_of_mem_children inside).le.trans brief.size }
  grown_refl _ := rfl
  grown_trans first second := second.trans first
  closures_grown _ _ := trivial
  scopes_grown _ _ := trivial
  binds_grown _ _ := trivial
  own _ _ _ := trivial
  lookup tame _ _ brief bound := by
    have other := brief.loopless _ List.mem_cons_self
    exact tame.holding.bindings _ _ _ bound (by simpa [Node.isLoop] using other)
  define tame _ plain := tame.bindIn _ _ plain
  assign tame _ _ plain := tame.bindIn _ _ plain
  openScope {depth _ scope _} tame _ plain := by
    have holding := tame.holding.openScope scope fun name value found _ => plain name value found
    exact ⟨depth, rfl, ⟨tame.callDepth, holding⟩, trivial, fun _ => trivial⟩
  addClosure {depth _ _ _ _} _ tame _ brief :=
    ⟨depth, rfl, ⟨tame.callDepth, tame.holding.addClosure brief⟩, trivial⟩
  closure tame _ stored := ⟨trivial, tame.holding.closures _ _ stored⟩
  missing _ _ _ := trivial
  method tame found := ⟨tame.holding.methods _ _ _ found, fun _ => trivial⟩
  registerMethod kind name tame plain _ :=
    ⟨tame.callDepth, tame.holding.registerMethod kind name plain⟩
  same _ _ _ tame := tame.of_same rfl rfl rfl rfl
  depths := halting_depths limits bound
  faults := .of_all fun _ _ => trivial
  fuels := halting_fuels limits bound

theorem Machine.Tame.fresh (bound : Nat) (silent : Bool) : (Machine.fresh silent).Tame bound 0 := by
  refine ⟨rfl, .fresh silent (fun other _ => .of_kind other) (fun named => absurd rfl named) ?_ ?_⟩
  · intro _ function _
    exact Native.noConfusion
  · intro method
    exact Native.noConfusion

/-- A program without loops ends, within the fuel that its size and the limit give. -/
theorem Program.ends_of_loopless {program : Program} (loopless : Loopless program.nodes)
    (limits : Limits) (silent : Bool) :
    ∃ outcome, program.Ends limits Machine.globalScope (.fresh silent) outcome := by
  let size := sizeOf program.statements
  let fuel := size + 3 + limits.reserve size 0 + 1
  have ends : (halting limits size).Ends (0 : Nat) .settled
      (program.eval limits fuel Machine.globalScope (.fresh silent)) :=
    (halting_lawful limits size).eval_ends trivial ⟨loopless, Nat.le_refl _⟩
      (fun _ _ _ _ => trivial) (Nat.lt_succ_self _) (.fresh size silent)
  refine ⟨_, fun cut => ?_, fuel, rfl⟩
  rw [cut] at ends
  cases ends with
  | outOfFuel short => exact short rfl

/-- The name that an expression consists of. -/
def Expr.name? : Expr → Option String
  | .identifier name _ => some name
  | _ => none

theorem Expr.name?_withSpan (span : Span) (value : Expr) :
    (value.withSpan span).name? = value.name? := by
  cases value <;> rfl

theorem Expr.name?_withTrailingBlock {value : Expr} {body : Block} (isCall : value.isCall = true) :
    (value.withTrailingBlock body).name? = none := by
  cases value with
  | call | methodCall => rfl
  | _ => contradiction

/-- Where the name comes from that the result of a phrase consists of. -/
def Phrase.Named (s : List Token) (name : String) : Phrase → Prop
  | expression _ result | call _ result | primary _ result | parenthesized result =>
    result.name? = some name → ∃ span, ⟨.identifier name, span⟩ ∈ s
  | operations _ left result | suffixes _ left result =>
    result.name? = some name → left.name? = some name
  | function _ result | conditional _ result => result.name? ≠ some name
  | _ => True

/-- An expression that is a name is spelled with it: operators and suffixes make no names, and
parentheses only enclose one. -/
theorem Spells.named (spelled : Spells phrase s rest) (name : String) : phrase.Named s name := by
  induction spelled with
  | expression _ _ ihHead ihTail | call _ _ ihHead ihTail =>
    intro named
    obtain ⟨span, member⟩ := ihHead (ihTail named)
    exact ⟨span, List.mem_append_left _ member⟩
  | operationsEnd | suffixesEnd => exact id
  | operationsMore _ _ _ _ ihTail | suffixesCall _ _ _ ihTail | suffixesMethod _ _ _ ihTail =>
    intro named
    cases ihTail named
  | suffixesBlock isCall =>
    intro named
    rw [Expr.name?_withTrailingBlock isCall] at named
    cases named
  | identifier =>
    intro named
    obtain rfl := Option.some.inj named
    exact ⟨_, List.mem_singleton_self _⟩
  | primaryParenthesized _ _ ih => exact ih
  | primaryConditional _ ih | primaryFunction _ ih => exact fun named => absurd named ih
  | number | string | trueWord | falseWord | nullWord | primaryBlock =>
    intro named
    cases named
  | @parenthesized n _ _ m _ _ _ _ _ _ ih =>
    intro named
    rw [Expr.name?_withSpan] at named
    obtain ⟨span, member⟩ := ih named
    exact ⟨span, List.mem_cons_of_mem _
      (List.mem_append_right n (List.mem_append_left _ member))⟩
  | function | conditional | conditionalElse =>
    intro named
    cases named
  | _ => trivial

/-- Tokens that spell a loop by themselves have the word for it. -/
theorem Alone.isLoop {node : Node} (alone : Alone s node) (loop : node.isLoop = true) :
    (∃ token ∈ s, token.kind = .keyword .forWord) ∨
      ∃ token ∈ s, token.kind = .identifier Native.whileLoop.name := by
  have spelled := alone [] rfl
  cases node with
  | stmt stmt =>
    cases stmt with
    | forEach =>
      cases spelled
      exact .inl ⟨_, List.mem_cons_self, rfl⟩
    | _ => contradiction
  | expr value =>
    cases value with
    | identifier name span =>
      obtain rfl : name = Native.whileLoop.name := by simpa [Node.isLoop] using loop
      obtain inner : Spells (.expression true (.identifier _ span)) s [] := by
        cases spelled
        assumption
      obtain ⟨span, member⟩ := inner.named Native.whileLoop.name rfl
      exact .inr ⟨_, member, rfl⟩
    | _ => contradiction

/-- The loops of a program have their words among its tokens. -/
theorem Program.loopless_of_tokens {tokens : List Token} {program : Program}
    (parsed : Program.ofTokens tokens = .ok program)
    (noWhile : ∀ token ∈ tokens, token.kind ≠ .identifier Native.whileLoop.name)
    (noFor : ∀ token ∈ tokens, token.kind ≠ .keyword .forWord) : Loopless program.nodes := by
  intro node member
  rw [← Bool.not_eq_true]
  intro loop
  obtain ⟨n, s, rest, _, rfl, spelled⟩ := Program.ofTokens_eq_ok_iff.mp parsed
  have plain : node.isTrailingBlock = false := by
    cases node with
    | stmt => rfl
    | expr value =>
      cases value with
      | trailingBlock => contradiction
      | _ => rfl
  obtain ⟨before, part, after, rfl, alone⟩ := spelled.inner node member plain
  have among : ∀ token ∈ part, token ∈ n ++ (before ++ (part ++ after) ++ rest) := by
    intro token inside
    simp [inside]
  obtain ⟨token, inside, word⟩ | ⟨token, inside, word⟩ := alone.isLoop loop
  · exact noFor token (among token inside) word
  · exact noWhile token (among token inside) word

/-- However a script calls functions, it ends if it has no word for a loop: with a value or a
fault, under every limit on the depth of calls. -/
theorem Program.ends_without_loops {source : String} {tokens : List Token} {program : Program}
    (scanned : Token.scan source = .ok tokens) (parsed : Program.parse source = .ok program)
    (noWhile : ∀ token ∈ tokens, token.kind ≠ .identifier "while")
    (noFor : ∀ token ∈ tokens, token.kind ≠ .keyword .forWord) (limits : Limits) (silent : Bool) :
    ∃ outcome, program.Ends limits Machine.globalScope (.fresh silent) outcome := by
  obtain ⟨tokens', scans, ofTokens⟩ := Program.parse_eq_ok_iff.mp parsed
  obtain rfl : tokens = tokens' :=
    Except.ok.inj (scanned.symm.trans (Scan.tokensFrom_eq_ok_iff.mpr scans))
  exact Program.ends_of_loopless (Program.loopless_of_tokens ofTokens noWhile noFor) limits silent

/-- A function that does nothing but call itself. -/
theorem Program.ends_without_loops_recursion :
    let source := "let f = () => f()\nf()"
    let tokens : List Token := [⟨.keyword .letWord, ⟨0, 3⟩⟩, ⟨.identifier "f", ⟨4, 5⟩⟩,
      ⟨.punctuation .assign, ⟨6, 7⟩⟩, ⟨.punctuation .leftParen, ⟨8, 9⟩⟩,
      ⟨.punctuation .rightParen, ⟨9, 10⟩⟩, ⟨.punctuation .arrow, ⟨11, 13⟩⟩,
      ⟨.identifier "f", ⟨14, 15⟩⟩, ⟨.punctuation .leftParen, ⟨15, 16⟩⟩,
      ⟨.punctuation .rightParen, ⟨16, 17⟩⟩, ⟨.newline, ⟨17, 18⟩⟩, ⟨.identifier "f", ⟨18, 19⟩⟩,
      ⟨.punctuation .leftParen, ⟨19, 20⟩⟩, ⟨.punctuation .rightParen, ⟨20, 21⟩⟩,
      ⟨.endOfInput, ⟨21, 21⟩⟩]
    let inside : Expr := .call (.identifier "f" ⟨14, 15⟩) [] ⟨14, 17⟩
    let body : Block := .mk [.expr inside ⟨14, 17⟩] true ⟨14, 17⟩
    let program : Program := ⟨[.declare "f" (.function [] body ⟨8, 17⟩) ⟨0, 17⟩,
      .expr (.call (.identifier "f" ⟨18, 19⟩) [] ⟨18, 21⟩) ⟨18, 21⟩]⟩
    Token.scan source = .ok tokens ∧ Program.parse source = .ok program ∧
      ∃ outcome, program.Ends {} Machine.globalScope (.fresh true) outcome := by
  intro source tokens inside body program
  have scanned : Token.scan source = .ok tokens := by cbv
  have parsed : Program.parse source = .ok program := by cbv
  exact ⟨scanned, parsed,
    Program.ends_without_loops scanned parsed (by simp [tokens]) (by simp [tokens]) {} true⟩

end PixelScript
