import PixelScript.Proofs.Evaluation.Blame
import PixelScript.Proofs.Evaluation.Limits
import PixelScript.Proofs.Syntax.Joining

/-! Faults of scripts have a place. Whatever goes wrong while a program runs on a fresh
machine is put at a node of the program that it belongs to. -/
namespace PixelScript

theorem Machine.Traceable.fresh (nodes : List Node) (silent : Bool) :
    (Machine.fresh silent).Traceable nodes 0 :=
  ⟨rfl, .fresh silent .of_kind trivial (fun _ => trivial) fun _ => ⟨rfl, rfl⟩⟩

/-- No fault of a program is left without a place. -/
theorem Program.eval_located {program : Program} {fault : Fault} {limits : Limits} {fuel : Nat}
    {silent : Bool} {machine : Machine}
    (ended : program.eval limits fuel Machine.globalScope (.fresh silent) = .fault fault machine) :
    fault.Located program.nodes := by
  have ends : (blaming program.nodes limits).Ends (0 : Nat) .settled
      (program.eval limits fuel Machine.globalScope (.fresh silent)) :=
    (blaming_lawful _ limits).eval_ends trivial (List.Subset.refl _) (fun _ _ _ _ => trivial)
      trivial (.fresh program.nodes silent)
  rw [ended] at ends
  cases ends with
  | fault _ _ blamed =>
    obtain located | ⟨_, leaves⟩ := blamed
    · exact located
    · cases leaves

/-- No fault belongs to a block behind a call. -/
theorem FaultSite.isTrailingBlock {nodes : List Node} {cause : Fault.Cause} {node : Node}
    (site : FaultSite nodes cause node) (shaped : ∀ node ∈ nodes, node.isShaped = true) :
    node.isTrailingBlock = false := by
  cases site with
  | @iterable binding value body span kind loop =>
    have shapedLoop := shaped _ loop
    simp only [Node.isShaped, Stmt.isShaped, Bool.and_eq_true] at shapedLoop
    cases value with
    | trailingBlock => cases shapedLoop.1
    | _ => rfl
  | _ => rfl

/-- The text of a node is not empty. -/
theorem Program.slice_node {source : String} {program : Program} {node : Node}
    (bound : Text.byteLength source.toList ≤ Span.maxOffset)
    (parsed : Program.parse source = .ok program) (member : node ∈ program.nodes)
    (plain : node.isTrailingBlock = false) :
    ∃ part, node.span.slice? source.toList = some part ∧ part ≠ [] := by
  obtain ⟨_, scans, parsed⟩ := Program.parse_eq_ok_iff.mp parsed
  obtain ⟨front, rfl⟩ := scans.exists_end
  obtain ⟨n, s, rest, newlines, same, spelled⟩ := Program.ofTokens_eq_ok_iff.mp parsed
  obtain rfl := spelled.statements_whole newlines scans.inside rfl same
  obtain ⟨before, segment, after, rfl, alone⟩ := spelled.inner node member plain
  simp only [List.append_assoc] at scans
  rw [← List.append_assoc n] at scans
  have covers := (alone [] rfl).extent scans.ordered.right.left
  rw [Node.span_toStmt] at covers
  obtain ⟨part, _, _, sliced, nonempty, _⟩ := scans.part covers (by simp) bound
  exact ⟨part, sliced, nonempty⟩

/-- A fault that ends a script on a fresh machine is at a node of the script that it belongs
to, so the place is one that has text. -/
theorem Machine.runFresh_located {limits : Limits} {silent : Bool} {fuel : Nat} {source : String}
    {fault : Fault}
    (failed : (Machine.runFresh limits silent fuel source).1 = .error (.failed fault)) :
    ∃ program, Program.parse source = .ok program ∧
      ∃ node ∈ program.nodes, fault.span = some node.span ∧
        FaultSite program.nodes fault.cause node ∧
        (Text.byteLength source.toList ≤ Span.maxOffset →
          ∃ part, node.span.slice? source.toList = some part ∧ part ≠ []) := by
  unfold Machine.runFresh at failed
  cases parsed : Program.parse source with
  | error error =>
    rw [parsed] at failed
    cases failed
  | ok program =>
    rw [parsed] at failed
    dsimp only at failed
    refine ⟨program, rfl, ?_⟩
    cases ended : program.eval limits fuel Machine.globalScope (.fresh silent) with
    | value | outOfFuel =>
      rw [ended] at failed
      cases failed
    | fault raised machine =>
      rw [ended] at failed
      cases failed
      obtain ⟨node, member, place, site⟩ := Program.eval_located ended
      have shaped := Stmt.areShaped_nodes _ (Program.isShaped_of_parse parsed)
      exact ⟨node, member, place, site,
        fun bound => Program.slice_node bound parsed member (site.isTrailingBlock shaped)⟩

/-- A loop over a string is at fault where the string stands. -/
theorem Machine.runFresh_located_loop :
    let source := "for c in \"a\" \x7b \x7d"
    let iterable : Expr := .string "a" ⟨9, 12⟩
    let program : Program := ⟨[.forEach "c" iterable (.mk [] false ⟨13, 16⟩) ⟨0, 16⟩]⟩
    let fault : Fault := ⟨.notIterable .string, some ⟨9, 12⟩⟩
    (Machine.runFresh {} true 20 source).1 = .error (.failed fault) ∧
      ∃ node ∈ program.nodes, node.span = ⟨9, 12⟩ ∧
        FaultSite program.nodes (.notIterable .string) node ∧
        ∃ part, node.span.slice? source.toList = some part ∧ part ≠ [] := by
  intro source iterable program fault
  have parsed : Program.parse source = .ok program := by cbv
  have failed : (Machine.runFresh {} true 20 source).1 = .error (.failed fault) := by
    rw [Machine.runFresh, parsed]
    rfl
  obtain ⟨program', parsed', node, member, place, site, text⟩ := Machine.runFresh_located failed
  cases parsed.symm.trans parsed'
  exact ⟨failed, node, member, (Option.some.inj place).symm, site, text (by decide)⟩

section Indentation

/-- A name behind blanks. -/
def indented (blanks : Nat) : String :=
  String.ofList (List.replicate blanks ' ' ++ ['x'])

theorem byteLength_blanks (n : Nat) : Text.byteLength (List.replicate n ' ') = n := by
  induction n with
  | zero => rfl
  | succ n ih =>
    rw [List.replicate_succ, Text.byteLength_cons, ih]
    exact Nat.add_comm ..

/-- Blanks are read at once. -/
theorem Scan.read_blanks (n : Nat) :
    Scan.read ' ' (List.replicate n ' ' ++ ['x']) = (.blank, (List.replicate n ' ').length) := by
  have taken : (List.replicate n ' ' ++ ['x']).takeWhile isBlank = List.replicate n ' ' := by
    rw [List.takeWhile_append_of_pos fun c blank => by rw [List.eq_of_mem_replicate blank]; rfl]
    exact List.append_nil _
  rw [Scan.read, if_pos (by decide), taken]

/-- The span of the name is that of its place, as far as spans go. -/
theorem Program.parse_indented (n : Nat) : Program.parse (indented (n + 1)) =
    .ok ⟨[.expr (.identifier "x" (Span.ofRange (n + 1) (n + 2)))
      (Span.ofRange (n + 1) (n + 2))]⟩ := by
  have stop : 0 + Text.byteLength (' ' :: List.replicate n ' ') = n + 1 := by
    rw [Nat.zero_add, ← List.replicate_succ, byteLength_blanks]
  have scans : Scans (n + 1) ('x' :: ([] ++ [])) [⟨.identifier "x", Span.ofRange (n + 1) (n + 2)⟩,
    ⟨.endOfInput, Span.ofRange (n + 2) (n + 2)⟩] := .emit rfl .nil
  rw [← stop] at scans
  have skipped := Scans.skip (Scan.read_blanks n) scans
  rw [stop, ← List.cons_append, ← List.replicate_succ,
    ← String.toList_ofList (l := _ ++ _)] at skipped
  exact Program.parse_eq_ok_iff.mpr ⟨_, skipped, rfl⟩

theorem Span.ofRange_of_le {start stop : Nat} (least : maxOffset ≤ start) (le : start ≤ stop) :
    ofRange start stop = point maxOffset := by
  rw [ofRange, Nat.min_eq_right least, Nat.min_eq_right (least.trans le), point]

/-- Behind as many blanks as a span can count, the place of the fault is empty. -/
theorem Machine.runFresh_indented {n : Nat} (least : Span.maxOffset ≤ n) :
    (Machine.runFresh {} true 20 (indented (n + 1))).1 =
        .error (.failed ⟨.undefinedVariable "x", some (.point Span.maxOffset)⟩) ∧
      (Span.point Span.maxOffset).slice? (indented (n + 1)).toList = some [] := by
  constructor
  · rw [Machine.runFresh, Program.parse_indented, Span.ofRange_of_le (by omega) (by omega)]
    rfl
  · obtain ⟨rest, split⟩ := Nat.exists_eq_add_of_le (least.trans n.le_succ)
    have sliced := Text.slice_append (List.replicate Span.maxOffset ' ') []
      (List.replicate rest ' ' ++ ['x'])
    rw [byteLength_blanks, List.nil_append, ← List.append_assoc, List.replicate_append_replicate,
      ← split] at sliced
    rw [indented, String.toList_ofList]
    exact sliced

/-- In a source of more than four gigabytes the place of a fault can be past what a span holds:
then the fault has a place without text. -/
theorem Machine.runFresh_beyond_spans :
    (Machine.runFresh {} true 20 (indented 4294967296)).1 =
        .error (.failed ⟨.undefinedVariable "x", some ⟨4294967295, 4294967295⟩⟩) ∧
      (⟨4294967295, 4294967295⟩ : Span).slice? (indented 4294967296).toList = some [] :=
  Machine.runFresh_indented (Nat.le_refl 4294967295)

end Indentation

end PixelScript
