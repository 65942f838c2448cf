import PixelScript.Machine.Fresh
import PixelScript.Proofs.Evaluation.Pairing
import PixelScript.Session.Host

/-! What a host allows a script, and whether it listens, changes a run only by cutting it
off. Under wider limits a run that was not cut off is the same run. -/
namespace PixelScript

/-- Machines that differ at most in the console, and in nothing if both are listened to
alike. -/
structure Machine.Twin (alike : Bool) (machine other : Machine) : Prop where
  same : other = { machine with console := other.console }
  console : alike = true → machine.console = other.console

namespace Machine.Twin

variable {α : Type} {alike : Bool}

theorem view (twin : Twin alike machine other) (view : Machine → α)
    (blind : ∀ machine console, view { machine with console := console } = view machine) :
    view machine = view other := by
  rw [twin.same]
  exact (blind machine other.console).symm

/-- A change that does not touch the console keeps the rest the same. -/
theorem change (twin : Twin alike machine other) (change : Machine → Machine)
    (blind : ∀ machine console,
      change { machine with console := console } = { change machine with console := console })
    (keeps : ∀ machine, (change machine).console = machine.console) :
    Twin alike (change machine) (change other) where
  same := by
    rw [keeps other]
    conv => lhs; rw [twin.same]
    exact blind machine other.console
  console := by
    rw [keeps machine, keeps other]
    exact twin.console

theorem frames (twin : Twin alike machine other) : machine.frames = other.frames :=
  twin.view Machine.frames fun _ _ => rfl

theorem printLine (twin : Twin alike machine other) (line : String) :
    Twin alike (machine.printLine line) (other.printLine line) where
  same := by
    conv => lhs; rw [twin.same]
    rfl
  console := by
    intro both
    simp only [Machine.printLine, twin.console both]

theorem similarity : Machine.Similarity (Machine.Twin alike) where
  display twin := (twin.view Machine.display fun _ _ => by
    funext value
    cases value <;> rfl).symm
  buffers twin := (twin.view Machine.buffers fun _ _ => rfl).symm
  iterators twin := (twin.view Machine.iterators fun _ _ => rfl).symm
  withBuffers buffers twin :=
    twin.change (fun machine => { machine with buffers }) (fun _ _ => rfl) fun _ => rfl
  withIterators iterators twin :=
    twin.change (fun machine => { machine with iterators }) (fun _ _ => rfl) fun _ => rfl
  printLine line twin := twin.printLine line

end Machine.Twin

/-- The same code under two limits, on machines that differ at most in the console. -/
def pacing (alike : Bool) (limits wider : Limits) : Coupling where
  toWording := .same fun _ => True
  World := Unit
  grown _ _ := True
  limits := limits
  limits' := wider
  cells _ := .same
  scopes _ _ scope scope' := scope' = scope
  machines _ := Machine.Twin alike
  faults _ := (Wording.same fun _ => True).SameFault
  cuts cause := cause.isLimit = true
  shortage := .ignored
  fuels _ _ fuel fuel' := 1 * fuel ≤ fuel'

namespace pacing

variable {alike : Bool} {limits wider : Limits} {duty : Duty} {value value' : Value}

theorem usable_iff : (pacing alike limits wider).Usable () duty value value' ↔ value' = value :=
  ⟨fun usable => Value.linked_same.mp usable.same,
    fun same => ⟨Value.linked_same.mpr same, fun _ _ => trivial⟩⟩

theorem worlds : (pacing alike limits wider).Worlds where
  grown_refl _ := trivial
  grown_trans _ _ := trivial
  cells_grown _ := .refl _
  scopes_grown _ := id
  binds_grown _ := id

theorem frames : (pacing alike limits wider).Frames where
  lookup {_ machine _ _ _ _ _ x _ _} twin same _ name := by
    obtain rfl := same
    obtain rfl := name
    refine ⟨?_, fun _ => rfl⟩
    rw [← Machine.lookup?_of_frames twin.frames]
    cases machine.lookup? _ x with
    | some => exact .some (usable_iff.mpr rfl)
    | none => exact .none
  define {_ _ _ _ _ scope _ x _ value'} twin same _ name given := by
    obtain rfl := same
    obtain rfl := name
    obtain rfl := usable_iff.mp given
    cases scope with
    | nil => exact twin
    | cons frame => exact twin.change (·.bindIn frame x value') (fun _ _ => rfl) fun _ => rfl
  assign {_ machine _ _ _ _ _ x _ _ _ _ _ _} twin same _ name given := by
    obtain rfl := same
    obtain rfl := name
    obtain rfl := usable_iff.mp given
    refine ⟨?_, fun _ => rfl⟩
    rw [Machine.assign?_eq_resolve?, Machine.assign?_eq_resolve?,
      ← Machine.resolve?_of_frames twin.frames]
    cases machine.resolve? x _ with
    | none => exact .none
    | some place =>
      exact .some (twin.change (·.bindIn place.1 x _) (fun _ _ => rfl) fun _ => rfl)
  openScope twin same _ _ entries := by
    obtain rfl := same
    obtain rfl := entries.eq_of_eq id usable_iff.mp
    refine ⟨(), trivial, ?_, ?_, fun _ => trivial⟩
    · exact twin.change (fun machine => (machine.openScope _ _).2) (fun _ _ => rfl) fun _ => rfl
    · exact (twin.view (fun machine => (machine.openScope _ _).1) fun _ _ => rfl).symm
  own _ _ _ := trivial

theorem functions : (pacing alike limits wider).Functions where
  addClosure name twin same literal := by
    obtain rfl := same
    obtain ⟨rfl, rfl, _⟩ := Wording.eq_of_same_literal literal
    refine ⟨(), trivial, ?_, Value.linked_same.mpr ?_⟩
    · exact twin.change (fun machine => (machine.addClosure _).2) (fun _ _ => rfl) fun _ => rfl
    · exact (twin.view (fun machine => (machine.addClosure _).1) fun _ _ => rfl).symm
  closure {_ machine _ _ id} twin same := by
    obtain rfl := same
    rw [← twin.view Machine.closures fun _ _ => rfl]
    refine ⟨?_, fun _ => ⟨rfl, .none⟩⟩
    cases machine.closures[id]? with
    | some => exact .some ⟨(), rfl, Wording.same_literal trivial⟩
    | none => exact .none
  method {_ machine _} kind name twin := by
    rw [← twin.view (·.method? kind name) fun _ _ => rfl]
    cases machine.method? kind name with
    | some => exact .some ⟨usable_iff.mpr rfl, fun _ => ⟨rfl, .none⟩⟩
    | none => exact .none
  registerMethod kind name twin same _ := by
    obtain rfl := usable_iff.mp same
    exact twin.change (·.registerMethod kind name _) (fun _ _ => rfl) fun _ => rfl

theorem lawful (within : limits.Within wider) : (pacing alike limits wider).Lawful where
  toLawful := Wording.same_lawful fun _ _ => trivial
  toWorlds := worlds
  frames := frames
  functions := functions
  cells := .of_similarity worlds id (fun _ => rfl) (fun _ => rfl) fun _ => Machine.Twin.similarity
  depths := .of_level rfl (.inr ⟨within, fun _ => id⟩)
    (fun twin => (twin.view Machine.callDepth fun _ _ => rfl).symm)
    fun depth twin => twin.change (fun machine => { machine with callDepth := depth })
      (fun _ _ => rfl) fun _ => rfl
  faults := .of_same rfl
  fuels := .of_pace rfl (Nat.le_refl 1) rfl trivial

end pacing

/-- A script on a fresh machine, followed for a number of steps. -/
def Machine.runFresh (limits : Limits) (silent : Bool) (fuel : Nat) (source : String) :
    HostAnswer × Machine :=
  match Program.parse source with
  | .ok program => HostAnswer.ofOutcome (.fresh silent)
      (program.eval limits fuel Machine.globalScope (.fresh silent))
  | .error error => (.error (.malformed error), .fresh silent)

/-- Hosts follow scripts for more steps than any takes. -/
theorem HostAction.perform_run (limits : Limits) (silent : Bool) (source : String) :
    HostAction.perform limits Machine.globalScope [] (.fresh silent) (.run source) =
      Machine.runFresh limits silent Evaluation.ampleFuel source := rfl

/-- Whether a run did not end, or was ended by a limit. -/
def HostAnswer.isCutOff : HostAnswer → Bool
  | .error (.failed fault) => fault.cause.isLimit
  | .outOfFuel => true
  | _ => false

theorem Machine.Twin.fresh (silent silent' : Bool) :
    Machine.Twin (silent == silent') (.fresh silent) (.fresh silent') where
  same := rfl
  console := by
    intro alike
    rw [beq_iff_eq.mp alike]

theorem HostAnswer.ofOutcome_paced {limits wider : Limits} {outcome outcome' : Outcome Value}
    (paced : (pacing alike limits wider).Ends () .settled (pacing alike limits wider).Values outcome
      outcome')
    (ends : (HostAnswer.ofOutcome start outcome).1.isCutOff = false) :
    (HostAnswer.ofOutcome start' outcome').1 = (HostAnswer.ofOutcome start outcome).1 ∧
      Machine.Twin alike (HostAnswer.ofOutcome start outcome).2
        (HostAnswer.ofOutcome start' outcome').2 := by
  cases paced with
  | value _ twin same =>
    obtain rfl := pacing.usable_iff.mp same
    exact ⟨rfl, twin⟩
  | fault _ twin alike =>
    obtain rfl := alike.eq id
    exact ⟨rfl, twin⟩
  | @cut raised _ _ limited =>
    have unlimited : raised.cause.isLimit = false := ends
    rw [show raised.cause.isLimit = true from limited] at unlimited
    contradiction
  | outOfFuel => contradiction

theorem Machine.runFresh_twin {limits wider : Limits} (within : Limits.Within limits wider)
    (silent silent' : Bool) (fuel : Nat) (source : String)
    (ends : (Machine.runFresh limits silent fuel source).1.isCutOff = false) :
    (Machine.runFresh wider silent' fuel source).1 =
        (Machine.runFresh limits silent fuel source).1 ∧
      Machine.Twin (silent == silent') (Machine.runFresh limits silent fuel source).2
        (Machine.runFresh wider silent' fuel source).2 := by
  have start := Machine.Twin.fresh silent silent'
  unfold Machine.runFresh at ends ⊢
  cases parsed : Program.parse source with
  | error error => exact ⟨rfl, start⟩
  | ok program =>
    rw [parsed] at ends
    have scopes : (pacing (silent == silent') limits wider).scopes () () Machine.globalScope
        Machine.globalScope := rfl
    exact HostAnswer.ofOutcome_paced (Coupling.eval_tracks (pacing.lawful within) scopes
      ⟨rfl, trivial⟩ (fun _ _ _ _ => trivial) (Nat.le_of_eq (Nat.one_mul fuel)) _ _ start) ends

/-- A run that limits do not cut off is the same run under wider limits, whether or not
the host listens: it ends with the same answer and the same state, and it prints the
same if both are listened to. -/
theorem Machine.runFresh_wider {limits wider : Limits} (within : Limits.Within limits wider)
    (silent silent' : Bool) (fuel : Nat) (source : String)
    (ends : (Machine.runFresh limits silent fuel source).1.isCutOff = false) :
    let (answer, machine) := Machine.runFresh limits silent fuel source
    let (answer', machine') := Machine.runFresh wider silent' fuel source
    answer' = answer ∧ machine'.frames = machine.frames ∧ machine'.closures = machine.closures ∧
      machine'.buffers = machine.buffers ∧ machine'.iterators = machine.iterators ∧
      machine'.methods = machine.methods ∧
      (silent = false → silent' = false → machine'.console.text = machine.console.text) := by
  obtain ⟨answer, twin⟩ := Machine.runFresh_twin within silent silent' fuel source ends
  refine ⟨answer, ?_, ?_, ?_, ?_, ?_, ?_⟩
  · exact (twin.view Machine.frames fun _ _ => rfl).symm
  · exact (twin.view Machine.closures fun _ _ => rfl).symm
  · exact (twin.view Machine.buffers fun _ _ => rfl).symm
  · exact (twin.view Machine.iterators fun _ _ => rfl).symm
  · exact (twin.view Machine.methods fun _ _ => rfl).symm
  · rintro rfl rfl
    exact (congrArg Console.text (twin.console rfl)).symm

/-- One call at a time is enough for a script that prints the result of a call. -/
theorem Machine.runFresh_wider_call :
    let source := "let f = (x) => x\nprint(f(\"a\"))"
    let (answer, machine) := Machine.runFresh ⟨1, some 4⟩ false 20 source
    let (answer', machine') := Machine.runFresh ⟨2, none⟩ false 20 source
    answer.isCutOff = false ∧ answer' = answer ∧ machine'.frames = machine.frames ∧
      machine'.closures = machine.closures ∧ machine'.buffers = machine.buffers ∧
      machine'.iterators = machine.iterators ∧ machine'.methods = machine.methods ∧
      machine'.console.text = machine.console.text := by
  intro source
  have parsed : Program.parse source = .ok ⟨[
      .declare "f" (.function ["x"]
        (.mk [.expr (.identifier "x" ⟨15, 16⟩) ⟨15, 16⟩] true ⟨15, 16⟩) ⟨8, 16⟩) ⟨0, 16⟩,
      .expr (.call (.identifier "print" ⟨17, 22⟩)
        [.call (.identifier "f" ⟨23, 24⟩) [.string "a" ⟨25, 28⟩] ⟨23, 29⟩] ⟨17, 30⟩)
        ⟨17, 30⟩]⟩ := by
    cbv
  have ends : (Machine.runFresh ⟨1, some 4⟩ false 20 source).1.isCutOff = false := by
    rw [Machine.runFresh, parsed]
    rfl
  have within : Limits.Within ⟨1, some 4⟩ ⟨2, none⟩ := ⟨by decide, by simp⟩
  obtain ⟨answer, frames, closures, buffers, iterators, methods, text⟩ :=
    Machine.runFresh_wider within false false 20 source ends
  exact ⟨ends, answer, frames, closures, buffers, iterators, methods, text rfl rfl⟩

end PixelScript
