import PixelScript.Proofs.Evaluation.Ending
import PixelScript.Proofs.Syntax.Joining
import PixelScript.Proofs.Syntax.Writing

/-! Programs in turn. Nothing is carried from one statement to the next but the machine, so
a script that is cut at a line break leaves the same behind as the whole script, as far as
spans do not count: those in the second part are counted from its own start. -/
namespace PixelScript

variable {α : Type}

def Fault.unplaced (fault : Fault) : Fault :=
  { fault with span := none }

/-- An outcome without the place of its fault and without the spans in closures. -/
def Outcome.eraseSpans : Outcome α → Outcome α :=
  Outcome.view Fault.unplaced Block.eraseSpans

theorem Block.eraseSpans_mapSpan (change : Span → Span) (body : Block) :
    (body.mapSpan change).eraseSpans = body.eraseSpans :=
  Block.mapSpan_mapSpan _ _ body

/-- The end of two runs on one machine. The second takes place if the first has a result,
and has the last word unless there is nothing in it. -/
inductive Program.EndInTurn (limits : Limits) (scope : Scope) (machine : Machine)
    (first second : Program) : Outcome Value → Prop
  | stopped (ends : first.Ends limits scope machine (.fault raised after)) :
      EndInTurn limits scope machine first second (.fault raised after)
  | failed (ends : first.Ends limits scope machine (.value result between))
      (ends' : second.Ends limits scope between (.fault raised after)) :
      EndInTurn limits scope machine first second (.fault raised after)
  | done (ends : first.Ends limits scope machine (.value result between))
      (ends' : second.Ends limits scope between (.value result' after)) :
      EndInTurn limits scope machine first second
        (.value (if second.statements.isEmpty then result else result') after)

namespace Evaluation

/-- Statements behind others get what fuel these leave. -/
theorem evalStatements_append (limits : Limits) (fuel : Nat) (scope : Scope)
    (first second : List Stmt) (last : Value) :
    evalStatements limits fuel scope (first ++ second) last =
      evalStatements limits fuel scope first last >>= fun result =>
        evalStatements limits (fuel - first.length) scope second result := by
  induction first generalizing fuel last with
  | nil =>
    cases fuel with
    | zero => rfl
    | succ fuel => rfl
  | cons stmt first ih =>
    cases fuel with
    | zero => rfl
    | succ fuel =>
      funext machine
      simp only [List.cons_append, evalStatements, List.length_cons, Nat.add_sub_add_right, ih]
      simp only [bind, Eval.bind]
      cases evalStmt limits fuel scope stmt machine <;> rfl

/-- A statement forgets the result of the one before. -/
theorem evalStatements_last (limits : Limits) (fuel : Nat) (scope : Scope) (program : Program)
    (last : Value) (machine : Machine) :
    evalStatements limits fuel scope program.statements last machine =
      match program.eval limits fuel scope machine with
      | .value result after =>
        .value (if program.statements.isEmpty then last else result) after
      | other => other := by
  unfold Program.eval
  cases program.statements with
  | nil => cases fuel <;> rfl
  | cons stmt stmts =>
    have forgets : evalStatements limits fuel scope (stmt :: stmts) last =
        evalStatements limits fuel scope (stmt :: stmts) .null := by
      cases fuel <;> rfl
    rw [forgets]
    cases evalStatements limits fuel scope (stmt :: stmts) .null machine <;> rfl

open Correspondence in
/-- Statements that are moved as a whole do the same. -/
theorem evalStatements_mapSpans (change : Span → Span) {machine : Machine} (more : fuel ≤ fuel')
    (ended : evalStatements limits fuel scope stmts last machine ≠ .outOfFuel) :
    (evalStatements limits fuel' scope (Stmt.mapSpans change stmts) last machine).eraseSpans =
      (evalStatements limits fuel scope stmts last machine).eraseSpans := by
  have lawful := respan_lawful fun _ => True
  have code : (respan fun _ => True).code () (.stmts stmts) (.stmts (Stmt.mapSpans change stmts)) :=
    ⟨change, trivial, rfl⟩
  have enough : (respan fun _ => True).pace * fuel ≤ fuel' := by
    simpa [respan, plain] using more
  have scopes : ((respan fun _ => True).coupling limits).scopes () () scope scope :=
    ⟨rfl, trivial⟩
  have tracks := Coupling.run_tracks (coupling_lawful lawful limits)
    (.statements scopes code (fun _ _ _ _ => trivial) (usable_iff.mpr (rfl : last = last))) enough
  refine ends_plain_eq ended (tracks machine machine (respan_refl trivial machine))
    (fun same => ?_) fun same => ?_
  · rw [Fault.unplaced, Fault.unplaced, same.1]
  · obtain ⟨_, _, moved⟩ := same
    rw [Part.block.inj moved, Block.eraseSpans_mapSpan]

end Evaluation

/-- Two runs in turn are one computation after the other. -/
theorem Program.endInTurn_iff {first second : Program} {machine : Machine}
    {outcome : Outcome Value} :
    EndInTurn limits scope machine first second outcome ↔ outcome ≠ .outOfFuel ∧
      ∃ fuel fuel', (first.eval limits fuel scope >>= fun result =>
        Evaluation.evalStatements limits fuel' scope second.statements result) machine =
          outcome := by
  simp only [bind, Eval.bind, Evaluation.evalStatements_last]
  constructor
  · intro ends
    cases ends with
    | stopped ends =>
      obtain ⟨ended, fuel, ran⟩ := ends
      exact ⟨ended, fuel, 0, by rw [ran]⟩
    | failed ends ends' =>
      obtain ⟨_, fuel, ran⟩ := ends
      obtain ⟨ended, fuel', ran'⟩ := ends'
      exact ⟨ended, fuel, fuel', by simp only [ran, ran']⟩
    | done ends ends' =>
      obtain ⟨_, fuel, ran⟩ := ends
      obtain ⟨_, fuel', ran'⟩ := ends'
      exact ⟨by simp, fuel, fuel', by simp only [ran, ran']⟩
  · rintro ⟨ended, fuel, fuel', ran⟩
    cases first? : first.eval limits fuel scope machine with
    | value result between =>
      have ends : first.Ends limits scope machine (.value result between) := ⟨by simp, fuel, first?⟩
      rw [first?] at ran
      dsimp only at ran
      cases second? : second.eval limits fuel' scope between with
      | value result' after =>
        rw [second?] at ran
        subst ran
        exact .done ends ⟨by simp, fuel', second?⟩
      | fault raised after =>
        rw [second?] at ran
        subst ran
        exact .failed ends ⟨by simp, fuel', second?⟩
      | outOfFuel =>
        rw [second?] at ran
        exact absurd ran.symm ended
    | fault raised after =>
      rw [first?] at ran
      subst ran
      exact .stopped ⟨by simp, fuel, first?⟩
    | outOfFuel =>
      rw [first?] at ran
      exact absurd ran.symm ended

theorem Outcome.ne_outOfFuel_of_eraseSpans {outcome outcome' : Outcome α}
    (ended : outcome ≠ .outOfFuel) (same : outcome'.eraseSpans = outcome.eraseSpans) :
    outcome' ≠ .outOfFuel := by
  rintro rfl
  exact ended (Outcome.view_eq_outOfFuel.mp same.symm)

/-- What comes behind a program may be moved, and both may get more fuel. -/
theorem Program.eval_moved {program : Program} {machine : Machine} (change : Span → Span)
    (more : fuel ≤ fuel') (more' : left ≤ left')
    (ended : (program.eval limits fuel scope >>= fun result =>
      Evaluation.evalStatements limits left scope stmts result) machine ≠ .outOfFuel) :
    ((program.eval limits fuel' scope >>= fun result => Evaluation.evalStatements limits left' scope
        (Stmt.mapSpans change stmts) result) machine).eraseSpans =
      ((program.eval limits fuel scope >>= fun result =>
        Evaluation.evalStatements limits left scope stmts result) machine).eraseSpans := by
  have first : program.eval limits fuel scope machine ≠ .outOfFuel := by
    intro cut
    simp [bind, Eval.bind, cut] at ended
  simp only [bind, Eval.bind, Program.eval_of_le first more] at ended ⊢
  cases ran : program.eval limits fuel scope machine with
  | value result between =>
    rw [ran] at ended
    exact Evaluation.evalStatements_mapSpans change more' ended
  | fault raised after => rfl
  | outOfFuel => exact absurd ran first

theorem Program.eval_append (limits : Limits) (fuel : Nat) (scope : Scope) (program : Program)
    (stmts : List Stmt) :
    Program.eval limits fuel scope ⟨program.statements ++ stmts⟩ =
      program.eval limits fuel scope >>= fun result => Evaluation.evalStatements limits
        (fuel - program.statements.length) scope stmts result :=
  Evaluation.evalStatements_append limits fuel scope program.statements stmts .null

/-- One run of all statements leaves what two runs in turn leave, up to spans. -/
theorem Program.ends_append_iff {first second : Program} {machine : Machine}
    {change back : Span → Span} (undoes : back ∘ change = id) (seen : Outcome Value) :
    (∃ outcome, Program.Ends limits scope machine
        ⟨first.statements ++ Stmt.mapSpans change second.statements⟩ outcome ∧
      outcome.eraseSpans = seen) ↔
    ∃ outcome, EndInTurn limits scope machine first second outcome ∧ outcome.eraseSpans = seen := by
  simp only [Program.Ends, Program.eval_append, Program.endInTurn_iff]
  constructor
  · rintro ⟨_, ⟨ended, fuel, rfl⟩, rfl⟩
    have same := Program.eval_moved back (Nat.le_refl fuel) (Nat.le_refl _) ended
    rw [Stmt.mapSpans_mapSpans, undoes, Stmt.mapSpans_id] at same
    exact ⟨_, ⟨Outcome.ne_outOfFuel_of_eraseSpans ended same, fuel, _, rfl⟩, same⟩
  · rintro ⟨_, ⟨ended, fuel, fuel', rfl⟩, rfl⟩
    -- enough for the first program, with what the second takes left behind its statements
    have more : fuel ≤ fuel + first.statements.length + fuel' := by omega
    have more' : fuel' ≤ fuel + first.statements.length + fuel' - first.statements.length := by
      omega
    have same := Program.eval_moved change more more' ended
    exact ⟨_, ⟨Outcome.ne_outOfFuel_of_eraseSpans ended same, _, rfl⟩, same⟩

/-- A script may be cut at a line break into two scripts that parse: together they parse to
the statements of both, where those of the second are moved behind the first, and a run of
it ends as two runs in turn do. -/
theorem Program.run_append {source source' : String} {program program' : Program}
    (bound : Text.byteLength source.toList + 1 + Text.byteLength source'.toList ≤ Span.maxOffset)
    (parsed : Program.parse source = .ok program)
    (parsed' : Program.parse source' = .ok program') :
    let joined : Program := ⟨program.statements ++
      Stmt.mapSpans (Span.shiftUp (Text.byteLength source.toList + 1)) program'.statements⟩
    Program.parse (source ++ "\n" ++ source') = .ok joined ∧
      ∀ (limits : Limits) (scope : Scope) (machine : Machine) (seen : Outcome Value),
        (∃ outcome, joined.Ends limits scope machine outcome ∧ outcome.eraseSpans = seen) ↔
        ∃ outcome, EndInTurn limits scope machine program program' outcome ∧
          outcome.eraseSpans = seen := by
  intro joined
  have undoes : ∀ distance, Span.shiftDown distance ∘ Span.shiftUp distance = id :=
    fun distance => funext (Span.shiftDown_shiftUp distance)
  exact ⟨Program.parse_append bound parsed parsed', fun limits scope machine seen =>
    Program.ends_append_iff (undoes _) seen⟩

/-- A function that is declared in a second script is the same as in one script, but its
code counts from another start. -/
theorem Program.run_append_function :
    let read (start : Nat) : Block := .mk [.expr (.identifier "x" ⟨start, start + 1⟩)
      ⟨start, start + 1⟩] true ⟨start, start + 1⟩
    let first : Program := ⟨[.declare "x" (.null ⟨8, 12⟩) ⟨0, 12⟩]⟩
    let second : Program := ⟨[.declare "f" (.function [] (read 14) ⟨8, 15⟩) ⟨0, 15⟩]⟩
    let machine (start : Nat) : Machine := { Machine.fresh true with
      frames := #[Machine.globalBindings ++ [("x", .null), ("f", .closure 0)]]
      closures := #[⟨[], read start, [0], some "f"⟩] }
    Program.parse "let x = null" = .ok first ∧ Program.parse "let f = () => x" = .ok second ∧
      Program.parse "let x = null\nlet f = () => x" = .ok ⟨first.statements ++
        [.declare "f" (.function [] (read 27) ⟨21, 28⟩) ⟨13, 28⟩]⟩ ∧
      ∃ outcome, EndInTurn {} Machine.globalScope (.fresh true) first second outcome ∧
        outcome.eraseSpans = (Outcome.value (Value.closure 0) (machine 27)).eraseSpans := by
  intro read first second machine
  have parsed : Program.parse "let x = null" = .ok first := by cbv
  have parsed' : Program.parse "let f = () => x" = .ok second := by cbv
  obtain ⟨joined, same⟩ := Program.run_append (by decide) parsed parsed'
  have ends : Program.Ends {} Machine.globalScope (.fresh true) ⟨first.statements ++
      [.declare "f" (.function [] (read 27) ⟨21, 28⟩) ⟨13, 28⟩]⟩
      (.value (.closure 0) (machine 27)) := ⟨by simp, 20, by cbv⟩
  exact ⟨parsed, parsed', joined, (same {} _ _ _).mp ⟨_, ends, rfl⟩⟩

end PixelScript
