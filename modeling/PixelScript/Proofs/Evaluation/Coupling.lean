import PixelScript.Proofs.Evaluation.Plans
import PixelScript.Proofs.Evaluation.Wording
import PixelScript.Proofs.Machine.Pooling

/-! Two runs side by side. A coupling says which machines, scopes and values of a second run go
with those of a first, and what may come of faults, of limits and of a lack of fuel. Its laws
are about single steps only. An invariant of one run is a coupling of the run with itself. -/
namespace PixelScript

variable {α β γ δ : Type}

/-- Wider limits: more calls at once, and longer sides of canvases, up to no bound. -/
structure Limits.Within (limits wider : Limits) : Prop where
  callDepth : limits.maxCallDepth ≤ wider.maxCallDepth
  canvasSide : ∀ bound', wider.maxCanvasSide = some bound' →
    ∃ bound, limits.maxCanvasSide = some bound ∧ bound ≤ bound'

/-- The faults that limits make. -/
def Fault.Cause.isLimit : Fault.Cause → Bool
  | .stackOverflow _ | .canvasDimension .. => true
  | _ => false

/-- Whether every call may end with the cause, whatever is called. -/
def Fault.Cause.isOfCall : Fault.Cause → Bool
  | argumentKind .. | canvasDimension .. | outOfBounds .. | unknownKind .. => true
  | stackOverflow .. => true
  | _ => false

/-- What something is done for. It decides which faults are still without a place. -/
inductive Duty where
  | settled
  | node (node : Node)
  | send (name : String)
  | call

namespace Duty

/-- What is done for one thing may be a step of another. -/
inductive Within : Duty → Duty → Prop
  | refl : Within duty duty
  | settled : Within .settled duty
  | send : Within .call (.send name)
  | callee : Within .call (.node (.expr (.call value args span)))
  | method : Within (.send name) (.node (.expr (.methodCall receiver name args span)))
  | operator : Within (.send name) (.node (.expr (.operation name left right span)))

/-- The causes that a duty itself has for faults. -/
inductive Raises : Duty → Fault.Cause → Prop
  | ofCall (ofCall : cause.isOfCall = true) : Raises .call cause
  | read : Raises (.node (.expr (.identifier name span))) (.undefinedVariable name)
  | assigned : Raises (.node (.stmt (.assign name value span))) (.undefinedVariable name)
  | callee : Raises (.node (.expr (.call value args span))) (.notCallable kind)
  | method : Raises (.send name) (.unknownOperator name kind)

end Duty

/-- What is said of a second run if the first is out of fuel. -/
inductive Shortage where
  | ignored
  | shared
  | excluded

def Shortage.Allows (shortage : Shortage) (other : Outcome α) : Prop :=
  shortage = .ignored ∨ shortage = .shared ∧ other = .outOfFuel

/-- Faults with the same cause, at spans that go together. -/
def Wording.SameFault (link : Wording) (fault fault' : Fault) : Prop :=
  fault'.cause = fault.cause ∧ Option.Rel link.spans fault.span fault'.span

theorem Wording.SameFault.orPlacedAt {link : Wording} {fault fault' : Fault} {span span' : Span}
    (same : link.SameFault fault fault') (spans : link.spans span span') :
    link.SameFault (fault.orPlacedAt span) (fault'.orPlacedAt span') := by
  obtain ⟨_, _⟩ := fault
  obtain ⟨_, _⟩ := fault'
  obtain ⟨cause, place⟩ := same
  refine ⟨cause, ?_⟩
  cases place with
  | none => exact .some spans
  | some place => exact .some place

/-- Where spans are the same, so are faults. -/
theorem Wording.SameFault.eq {link : Wording} {fault fault' : Fault}
    (same : link.SameFault fault fault')
    (only : ∀ {span span'}, link.spans span span' → span' = span) : fault' = fault := by
  obtain ⟨cause, span⟩ := fault
  obtain ⟨cause', span'⟩ := fault'
  obtain ⟨rfl, placed⟩ := same
  cases placed with
  | none => rfl
  | some same => rw [only same]

/-- What goes with what in two runs. Worlds say what has come about so far. -/
structure Coupling extends Wording where
  World : Type
  grown : World → World → Prop
  /-- The world of the body of a closure that is called. -/
  deeper : World → World := id
  limits : Limits
  limits' : Limits := limits
  cells : World → Link
  /-- The native functions that may be called for a duty. -/
  natives : Duty → Native → Prop := fun _ _ => True
  scopes : World → Mode → Scope → Scope → Prop
  /-- The names that code may bind in the innermost frame of a scope. -/
  binds : World → Scope → String → Prop := fun _ _ _ => True
  machines : World → Machine → Machine → Prop
  faults : Duty → Fault → Fault → Prop
  /-- The faults of the first run after which nothing is said of the second. -/
  cuts : Fault.Cause → Prop := fun _ => False
  shortage : Shortage
  /-- Whether code may go round in loops. -/
  loops : Prop := True
  /-- How much fuel is enough for what has a given weight. -/
  fuels : World → Nat → Nat → Nat → Prop

/-- Every handle stands for itself. -/
def Link.same : Link where
  frames id id' := id' = id
  closures id id' := id' = id
  iterators id id' := id' = id
  buffers id id' := id' = id

theorem Value.linked_same {value value' : Value} :
    Value.Linked .same value value' ↔ value' = value := by
  constructor
  · intro linked
    cases linked with
    | itself => rfl
    | closure pair | iterator pair | pixelBuffer pair => rw [show _ = _ from pair]
  · rintro rfl
    cases value' with
    | closure => exact .closure rfl
    | iterator => exact .iterator rfl
    | pixelBuffer => exact .pixelBuffer rfl
    | _ => exact .itself rfl

/-- Machines with the same iterators and buffers, on which values look the same. -/
structure Machine.Similarity (related : Machine → Machine → Prop) : Prop where
  display : ∀ {machine machine'}, related machine machine' → machine'.display = machine.display
  buffers : ∀ {machine machine'}, related machine machine' → machine'.buffers = machine.buffers
  iterators : ∀ {machine machine'}, related machine machine' →
    machine'.iterators = machine.iterators
  withBuffers : ∀ {machine machine'} (buffers : Array PixelBuffer), related machine machine' →
    related { machine with buffers } { machine' with buffers }
  withIterators : ∀ {machine machine'} (iterators : Array Range), related machine machine' →
    related { machine with iterators } { machine' with iterators }
  printLine : ∀ {machine machine'} (line : String), related machine machine' →
    related (machine.printLine line) (machine'.printLine line)

namespace Coupling

variable (link : Coupling)

/-- Values of the two runs, which may be called for a duty if they are functions at all. -/
structure Usable (world : link.World) (duty : Duty) (value value' : Value) : Prop where
  same : Value.Linked (link.cells world) value value'
  allowed : ∀ function, value = .native function → link.natives duty function

/-- Values that code of the two runs may hold. -/
abbrev Values (world : link.World) (value value' : Value) : Prop :=
  link.Usable world .call value value'

abbrev Arguments (world : link.World) (args args' : List Value) : Prop :=
  List.Forall₂ (link.Values world) args args'

/-- Functions that are called for a duty, or values whose call is refused then. -/
structure Callee (world : link.World) (duty : Duty) (value value' : Value) : Prop
    extends link.Usable world duty value value' where
  refused : value.kind ≠ .function →
    link.faults duty ⟨.notCallable value.kind, none⟩ ⟨.notCallable value.kind, none⟩

/-- Closures with code that matches, made in scopes of the two runs. -/
def Stored (world : link.World) (closure closure' : Closure) : Prop :=
  ∃ mode, link.scopes world mode closure.scope closure'.scope ∧
    link.Literal mode (closure.params, closure.body) (closure'.params, closure'.body)

/-- Worlds only come to be richer. -/
structure Worlds : Prop where
  grown_refl : ∀ world, link.grown world world
  grown_trans : ∀ {world later last}, link.grown world later → link.grown later last →
    link.grown world last
  cells_grown : ∀ {world later}, link.grown world later →
    (link.cells world).Grows (link.cells later)
  scopes_grown : ∀ {world later mode scope scope'}, link.grown world later →
    link.scopes world mode scope scope' → link.scopes later mode scope scope'
  binds_grown : ∀ {world later scope name}, link.grown world later →
    link.binds world scope name → link.binds later scope name

/-- How names are read, bound and assigned to. -/
structure Frames : Prop where
  lookup : ∀ {world machine machine' mode scope scope' x x' s s'},
    link.machines world machine machine' → link.scopes world mode scope scope' →
    link.code mode (.expr (.identifier x s)) (.expr (.identifier x' s')) →
    link.names mode x x' →
    Option.Rel (link.Values world) (machine.lookup? scope x) (machine'.lookup? scope' x') ∧
      (machine.lookup? scope x = none → x' = x)
  define : ∀ {world machine machine' mode scope scope' x x' value value'},
    link.machines world machine machine' → link.scopes world mode scope scope' →
    link.binds world scope x → link.names mode x x' → link.Values world value value' →
    link.machines world (machine.define scope x value) (machine'.define scope' x' value')
  assign : ∀ {world machine machine' mode scope scope' x x' e e' s s' value value'},
    link.machines world machine machine' → link.scopes world mode scope scope' →
    link.code mode (.stmt (.assign x e s)) (.stmt (.assign x' e' s')) →
    link.names mode x x' → link.Values world value value' →
    Option.Rel (link.machines world) (machine.assign? scope x value)
        (machine'.assign? scope' x' value') ∧
      (machine.assign? scope x value = none → x' = x)
  openScope : ∀ {world machine machine' mode scope scope' params inner}
    {bindings bindings' : Bindings},
    link.machines world machine machine' → link.scopes world mode scope scope' →
    link.opens mode params inner → (∀ param ∈ params, (bindings.get? param).isSome = true) →
    Table.Related (link.names inner) (link.Values world) bindings bindings' →
    ∃ later, link.grown world later ∧
      link.machines later (machine.openScope scope bindings).2
        (machine'.openScope scope' bindings').2 ∧
      link.scopes later inner (machine.openScope scope bindings).1
        (machine'.openScope scope' bindings').1 ∧
      ∀ name, link.binds later (machine.openScope scope bindings).1 name
  /-- The body of a function has a scope of its own; other code may run where it stands. -/
  own : ∀ {world mode part part' body scope name}, link.code mode part part' →
    body ∈ part.blocks → body.isFunctionBody = true → link.binds world scope name

/-- How closures are made, found and sent for. -/
structure Functions : Prop where
  addClosure : ∀ {world machine machine' mode scope scope' params params' body body'}
    (name : Option String), link.machines world machine machine' →
    link.scopes world mode scope scope' → link.Literal mode (params, body) (params', body') →
    ∃ later, link.grown world later ∧
      link.machines later (machine.addClosure ⟨params, body, scope, name⟩).2
        (machine'.addClosure ⟨params', body', scope', name⟩).2 ∧
      Value.Linked (link.cells later) (machine.addClosure ⟨params, body, scope, name⟩).1
        (machine'.addClosure ⟨params', body', scope', name⟩).1
  closure : ∀ {world machine machine' id id'}, link.machines world machine machine' →
    (link.cells world).closures id id' →
    Option.Rel (link.Stored world) machine.closures[id]? machine'.closures[id']? ∧
      (machine.closures[id]? = none →
        link.faults .call ⟨.notCallable .function, none⟩ ⟨.notCallable .function, none⟩)
  method : ∀ {world machine machine'} (kind : ValueKind) (name : String),
    link.machines world machine machine' →
    Option.Rel (link.Callee world (.send name)) (machine.method? kind name)
      (machine'.method? kind name)
  registerMethod : ∀ {world machine machine' value value'} (kind : ValueKind) (name : String),
    link.machines world machine machine' → link.Values world value value' →
    value.kind = .function →
    link.machines world (machine.registerMethod kind name value)
      (machine'.registerMethod kind name value')

/-- How iterators, buffers and the console are used. -/
structure Cells : Prop where
  addRange : ∀ {world machine machine'} (range : Range), link.machines world machine machine' →
    ∃ later, link.grown world later ∧
      link.machines later (machine.addRange range).2 (machine'.addRange range).2 ∧
      Value.Linked (link.cells later) (machine.addRange range).1 (machine'.addRange range).1
  advance : ∀ {world machine machine' id id'}, link.machines world machine machine' →
    (link.cells world).iterators id id' →
    link.machines world (machine.advanceIterator id).2 (machine'.advanceIterator id').2 ∧
      (machine'.advanceIterator id').1 = (machine.advanceIterator id).1
  addBuffer : ∀ {world machine machine'} (buffer : PixelBuffer),
    link.machines world machine machine' →
    ∃ later, link.grown world later ∧
      link.machines later (machine.addBuffer buffer).2 (machine'.addBuffer buffer).2 ∧
      Value.Linked (link.cells later) (machine.addBuffer buffer).1 (machine'.addBuffer buffer).1
  updateBuffer : ∀ {world machine machine' id id'} (change : PixelBuffer → PixelBuffer),
    link.machines world machine machine' → (link.cells world).buffers id id' →
    link.machines world (machine.updateBuffer id change) (machine'.updateBuffer id' change)
  buffer : ∀ {world machine machine' id id'}, link.machines world machine machine' →
    (link.cells world).buffers id id' → machine'.buffers[id']? = machine.buffers[id]?
  display : ∀ {world machine machine' value value'}, link.machines world machine machine' →
    Value.Linked (link.cells world) value value' →
    machine'.display value' = machine.display value
  printLine : ∀ {world machine machine'} (line : String), link.machines world machine machine' →
    link.machines world (machine.printLine line) (machine'.printLine line)

/-- How calls are counted. Only under wider limits may the runs differ in what is refused. -/
structure Depths : Prop where
  limited : link.limits' = link.limits ∨
    link.limits.Within link.limits' ∧ ∀ cause : Fault.Cause, cause.isLimit = true → link.cuts cause
  callDepth : ∀ {world machine machine'}, link.machines world machine machine' →
    machine'.callDepth = machine.callDepth
  entered : ∀ world, (link.cells world).Grows (link.cells (link.deeper world))
  enter : ∀ {world machine machine'}, link.machines world machine machine' →
    link.machines (link.deeper world) { machine with callDepth := machine.callDepth + 1 }
      { machine' with callDepth := machine'.callDepth + 1 }
  leave : ∀ {world later machine machine'}, link.grown (link.deeper world) later →
    link.machines later machine machine' →
    ∃ last, link.grown world last ∧ (link.cells later).Grows (link.cells last) ∧
      link.machines last { machine with callDepth := machine.callDepth - 1 }
        { machine' with callDepth := machine'.callDepth - 1 }

/-- Which faults go with which. -/
structure Faults : Prop where
  loosen : ∀ {duty outer fault fault'}, Duty.Within duty outer → link.faults duty fault fault' →
    link.faults outer fault fault'
  raise : ∀ {duty cause}, Duty.Raises duty cause → link.faults duty ⟨cause, none⟩ ⟨cause, none⟩
  builtin : ∀ {duty method} (kind : ValueKind), link.natives duty (.builtin method) →
    link.faults duty ⟨.unknownOperator method.name kind, none⟩
      ⟨.unknownOperator method.name kind, none⟩
  expression : ∀ {mode value value' fault fault'}, link.code mode (.expr value) (.expr value') →
    link.spans value.span value'.span → link.faults (.node (.expr value)) fault fault' →
    link.faults .settled (fault.orPlacedAt value.span) (fault'.orPlacedAt value'.span)
  statement : ∀ {mode stmt stmt' fault fault'}, link.code mode (.stmt stmt) (.stmt stmt') →
    link.spans stmt.span stmt'.span → link.faults (.node (.stmt stmt)) fault fault' →
    link.faults .settled (fault.orPlacedAt stmt.span) (fault'.orPlacedAt stmt'.span)
  iterable : ∀ {mode x x' value value' body body' s s'} (kind : ValueKind),
    link.code mode (.stmt (.forEach x value body s)) (.stmt (.forEach x' value' body' s')) →
    link.spans value.span value'.span →
    link.faults (.node (.stmt (.forEach x value body s))) ⟨.notIterable kind, some value.span⟩
      ⟨.notIterable kind, some value'.span⟩

/-- How fuel is used up: what has less weight needs less, and loops need no less. -/
structure Fuels : Prop where
  grown : ∀ {world later weight fuel fuel'}, link.grown world later →
    link.fuels world weight fuel fuel' → link.fuels later weight fuel fuel'
  short : ∀ {world weight fuel'}, link.fuels world weight 0 fuel' →
    link.shortage = .ignored ∨ link.shortage = .shared ∧ fuel' = 0
  spend : ∀ {world weight fuel fuel'}, link.fuels world weight (fuel + 1) fuel' →
    ∃ left, fuel' = left + 1 ∧
      ∀ {less}, less < weight ∨ link.loops → link.fuels world less fuel left
  /-- Where the second run may take steps of its own, it has fuel for them. -/
  slack : ∀ {world weight fuel fuel'}, 2 ≤ link.pace → link.fuels world weight (fuel + 1) fuel' →
    ∃ left, fuel' = left + 2 ∧
      ∀ {less}, less < weight ∨ link.loops → link.fuels world less fuel left
  loose : ∀ {world weight fuel fuel'}, 2 ≤ link.pace → link.fuels world weight fuel fuel' →
    link.shortage = .ignored ∧ link.fuels world weight fuel (fuel' + 1)
  enter : ∀ {world machine machine' mode body body' fuel fuel'},
    link.machines world machine machine' → machine.callDepth < link.limits.maxCallDepth →
    link.code mode (.block body) (.block body') → link.fuels world 1 (fuel + 1) (fuel' + 1) →
    link.fuels (link.deeper world) (sizeOf body + 3) fuel fuel'
  whileLoop : ∀ {duty}, link.natives duty .whileLoop → link.loops
  forEach : ∀ {mode x iterable body span part'},
    link.code mode (.stmt (.forEach x iterable body span)) part' → link.loops

/-- What is asked of a coupling. -/
structure Lawful : Prop extends link.toWording.Lawful, link.Worlds where
  frames : link.Frames
  functions : link.Functions
  cells : link.Cells
  depths : link.Depths
  faults : link.Faults
  fuels : link.Fuels

/-- How the second of two runs ends, given how the first does. -/
inductive Ends (world : link.World) (duty : Duty) (good : link.World → α → β → Prop) :
    Outcome α → Outcome β → Prop
  | value {later : link.World} {result : α} {result' : β} {machine machine' : Machine}
      (grown : link.grown world later) (machines : link.machines later machine machine')
      (fine : good later result result') :
      Ends world duty good (.value result machine) (.value result' machine')
  | fault {later : link.World} {raised raised' : Fault} {machine machine' : Machine}
      (grown : link.grown world later) (machines : link.machines later machine machine')
      (alike : link.faults duty raised raised') :
      Ends world duty good (.fault raised machine) (.fault raised' machine')
  | cut {raised : Fault} {machine : Machine} {other : Outcome β} (cut : link.cuts raised.cause) :
      Ends world duty good (.fault raised machine) other
  | outOfFuel {other : Outcome β} (allowed : link.shortage.Allows other) :
      Ends world duty good .outOfFuel other

/-- The second computation does what the first does, from all machines that go together. -/
def Tracks (world : link.World) (duty : Duty) (good : link.World → α → β → Prop)
    (action : Eval α) (action' : Eval β) : Prop :=
  ∀ machine machine', link.machines world machine machine' →
    link.Ends world duty good (action machine) (action' machine')

/-- Both runs give the same result. -/
abbrev Same (world : link.World) (duty : Duty) (action action' : Eval α) : Prop :=
  link.Tracks world duty (fun _ result result' => result' = result) action action'

variable {link} {world later : link.World} {duty : Duty}

namespace Usable

variable {value value' : Value}

theorem grown (worlds : link.Worlds) (grown : link.grown world later)
    (usable : link.Usable world duty value value') : link.Usable later duty value value' :=
  ⟨usable.same.grown (worlds.cells_grown grown), usable.allowed⟩

/-- A value that is no handle and no function. -/
theorem plain (handle : value.isHandle = false) (kind : value.kind ≠ .function) :
    link.Usable world duty value value := by
  refine ⟨.itself handle, ?_⟩
  rintro function rfl
  exact absurd rfl kind

theorem null : link.Usable world duty .null .null :=
  plain rfl (by simp [Value.kind])

theorem of_handle (same : Value.Linked (link.cells world) value value')
    (handle : value.isHandle = true) : link.Usable world duty value value' := by
  refine ⟨same, ?_⟩
  rintro function rfl
  contradiction

theorem kind (usable : link.Usable world duty value value') : value'.kind = value.kind :=
  usable.same.kind

theorem callee (usable : link.Usable world duty value value') (callable : value.kind = .function) :
    link.Callee world duty value value' :=
  { usable with refused := fun other => absurd callable other }

theorem getD {found found' : Option Value}
    (usable : Option.Rel (link.Usable world duty) found found') :
    link.Usable world duty (found.getD .null) (found'.getD .null) := by
  cases usable with
  | some usable => exact usable
  | none => exact .null

theorem all_grown (worlds : link.Worlds) (grown : link.grown world later)
    {args args' : List Value} (given : link.Arguments world args args') :
    link.Arguments later args args' :=
  given.imp fun _ _ usable => usable.grown worlds grown

end Usable

theorem Ends.earlier (worlds : link.Worlds) {good : link.World → α → β → Prop}
    {outcome : Outcome α} {outcome' : Outcome β} (grown : link.grown world later)
    (ends : link.Ends later duty good outcome outcome') :
    link.Ends world duty good outcome outcome' := by
  cases ends with
  | value more machines fine => exact .value (worlds.grown_trans grown more) machines fine
  | fault more machines alike => exact .fault (worlds.grown_trans grown more) machines alike
  | cut cut => exact .cut cut
  | outOfFuel allowed => exact .outOfFuel allowed

namespace Tracks

variable {good : link.World → α → β → Prop} {final : link.World → γ → δ → Prop}

theorem pure (worlds : link.Worlds) {result : α} {result' : β} (fine : good world result result') :
    link.Tracks world duty good (Pure.pure result : Eval α) (Pure.pure result' : Eval β) :=
  fun _ _ machines => .value (worlds.grown_refl world) machines fine

theorem fail (worlds : link.Worlds) {cause : Fault.Cause}
    (raised : link.faults duty ⟨cause, none⟩ ⟨cause, none⟩) :
    link.Tracks world duty good (Eval.fail cause) (Eval.fail cause) :=
  fun _ _ machines => .fault (worlds.grown_refl world) machines raised

theorem failAt (worlds : link.Worlds) {cause : Fault.Cause} {span span' : Span}
    (raised : link.faults duty ⟨cause, some span⟩ ⟨cause, some span'⟩) :
    link.Tracks world duty good (Eval.failAt span cause) (Eval.failAt span' cause) :=
  fun _ _ machines => .fault (worlds.grown_refl world) machines raised

theorem read (worlds : link.Worlds) {view : Machine → α} {view' : Machine → β}
    (fine : ∀ machine machine', link.machines world machine machine' →
      good world (view machine) (view' machine')) :
    link.Tracks world duty good (Eval.read view) (Eval.read view') :=
  fun machine machine' machines =>
    .value (worlds.grown_refl world) machines (fine machine machine' machines)

theorem modify (worlds : link.Worlds) {change change' : Machine → Machine}
    (kept : ∀ machine machine', link.machines world machine machine' →
      link.machines world (change machine) (change' machine')) :
    link.Same world duty (Eval.modify change) (Eval.modify change') :=
  fun machine machine' machines =>
    .value (worlds.grown_refl world) (kept machine machine' machines) rfl

theorem modifyGet {change : Machine → α × Machine} {change' : Machine → β × Machine}
    (kept : ∀ machine machine', link.machines world machine machine' →
      ∃ later, link.grown world later ∧
        link.machines later (change machine).2 (change' machine').2 ∧
        good later (change machine).1 (change' machine').1) :
    link.Tracks world duty good (Eval.modifyGet change) (Eval.modifyGet change') := by
  intro machine machine' machines
  obtain ⟨later, grown, after, fine⟩ := kept machine machine' machines
  exact .value grown after fine

theorem bind (worlds : link.Worlds) {first : Eval α} {first' : Eval β} {next : α → Eval γ}
    {next' : β → Eval δ} (head : link.Tracks world duty good first first')
    (tail : ∀ later, link.grown world later → ∀ result result', good later result result' →
      link.Tracks later duty final (next result) (next' result')) :
    link.Tracks world duty final (first >>= next) (first' >>= next') := by
  intro machine machine' machines
  have ends := head machine machine' machines
  simp only [Bind.bind, Eval.bind]
  generalize first machine = outcome, first' machine' = outcome' at ends ⊢
  cases ends with
  | value grown between fine => exact (tail _ grown _ _ fine _ _ between).earlier worlds grown
  | fault grown after alike => exact .fault grown after alike
  | cut cut => exact .cut cut
  | outOfFuel allowed =>
    obtain ignored | ⟨shared, rfl⟩ := allowed
    · exact .outOfFuel (.inl ignored)
    · exact .outOfFuel (.inr ⟨shared, rfl⟩)

/-- The usual case: what comes first gives the same result in both runs. -/
theorem bind_same (worlds : link.Worlds) {first first' : Eval α} {next : α → Eval γ}
    {next' : α → Eval δ} (head : link.Same world duty first first')
    (tail : ∀ later, link.grown world later → ∀ result,
      link.Tracks later duty final (next result) (next' result)) :
    link.Tracks world duty final (first >>= next) (first' >>= next') := by
  refine head.bind worlds fun later grown result result' same => ?_
  subst same
  exact tail later grown _

theorem loosen (faults : link.Faults) {inner : Duty} {action : Eval α} {action' : Eval β}
    (within : inner.Within duty) (tracks : link.Tracks world inner good action action') :
    link.Tracks world duty good action action' := by
  intro machine machine' machines
  have ends := tracks machine machine' machines
  generalize action machine = outcome, action' machine' = outcome' at ends ⊢
  cases ends with
  | value grown after fine => exact .value grown after fine
  | fault grown after alike => exact .fault grown after (faults.loosen within alike)
  | cut cut => exact .cut cut
  | outOfFuel allowed => exact .outOfFuel allowed

theorem within {inner : Duty} {span span' : Span} {action : Eval α} {action' : Eval β}
    (placed : ∀ {fault fault'}, link.faults inner fault fault' →
      link.faults duty (fault.orPlacedAt span) (fault'.orPlacedAt span'))
    (tracks : link.Tracks world inner good action action') :
    link.Tracks world duty good (Eval.within span action) (Eval.within span' action') := by
  intro machine machine' machines
  have ends := tracks machine machine' machines
  simp only [Eval.within]
  generalize action machine = outcome, action' machine' = outcome' at ends ⊢
  cases ends with
  | value grown after fine => exact .value grown after fine
  | fault grown after alike => exact .fault grown after (placed alike)
  | cut cut => exact .cut cut
  | outOfFuel allowed =>
    obtain ignored | ⟨shared, rfl⟩ := allowed
    · exact .outOfFuel (.inl ignored)
    · exact .outOfFuel (.inr ⟨shared, rfl⟩)

/-- Values do not depend on how deep calls are. -/
theorem deeper (depths : link.Depths) {action action' : Eval Value} {machine machine' : Machine}
    (machines : link.machines world machine machine')
    (tracks : link.Tracks (link.deeper world) duty link.Values action action') :
    link.Ends world duty link.Values (Eval.deeper action machine)
      (Eval.deeper action' machine') := by
  have ends := tracks _ _ (depths.enter machines)
  simp only [Eval.deeper]
  generalize action _ = outcome, action' _ = outcome' at ends ⊢
  cases ends with
  | value grown after fine =>
    obtain ⟨last, grown, cells, after⟩ := depths.leave grown after
    exact .value grown after ⟨fine.same.grown cells, fine.allowed⟩
  | fault grown after alike =>
    obtain ⟨last, grown, _, after⟩ := depths.leave grown after
    exact .fault grown after alike
  | cut cut => exact .cut cut
  | outOfFuel allowed =>
    obtain ignored | ⟨shared, rfl⟩ := allowed
    · exact .outOfFuel (.inl ignored)
    · exact .outOfFuel (.inr ⟨shared, rfl⟩)

end Tracks

/-! Laws of couplings that have much in common. -/

theorem Faults.of_same (same : link.faults = fun _ => link.SameFault) : link.Faults where
  loosen _ alike := by
    rw [same] at alike ⊢
    exact alike
  raise _ := by
    rw [same]
    exact ⟨rfl, .none⟩
  builtin _ _ := by
    rw [same]
    exact ⟨rfl, .none⟩
  expression _ span alike := by
    rw [same] at alike ⊢
    exact alike.orPlacedAt span
  statement _ span alike := by
    rw [same] at alike ⊢
    exact alike.orPlacedAt span
  iterable _ _ span := by
    rw [same]
    exact ⟨rfl, .some span⟩

/-- The second run has so many times the fuel of the first, or more. -/
theorem Fuels.of_pace (enough : link.fuels = fun _ _ fuel fuel' => link.pace * fuel ≤ fuel')
    (pace : 1 ≤ link.pace) (ignored : link.shortage = .ignored) (loops : link.loops) :
    link.Fuels where
  grown _ fuels := by
    rw [enough] at fuels ⊢
    exact fuels
  short _ := .inl ignored
  spend {_ _ fuel fuel'} fuels := by
    rw [enough, Nat.mul_succ] at fuels
    refine ⟨fuel' - 1, by omega, fun _ => ?_⟩
    rw [enough]
    omega
  slack {_ _ fuel fuel'} _ fuels := by
    rw [enough, Nat.mul_succ] at fuels
    refine ⟨fuel' - 2, by omega, fun _ => ?_⟩
    rw [enough]
    omega
  loose _ fuels := by
    rw [enough] at fuels ⊢
    exact ⟨ignored, Nat.le_succ_of_le fuels⟩
  enter _ _ _ fuels := by
    rw [enough, Nat.mul_succ] at fuels
    rw [enough]
    omega
  whileLoop _ := loops
  forEach _ := loops

/-- Both runs have the same fuel. -/
theorem Fuels.of_equal (equal : link.fuels = fun _ _ fuel fuel' => fuel' = fuel)
    (pace : link.pace < 2) (allowed : link.shortage ≠ .excluded) (loops : link.loops) :
    link.Fuels where
  grown _ fuels := by
    rw [equal] at fuels ⊢
    exact fuels
  short fuels := by
    rw [equal] at fuels
    cases shortage : link.shortage with
    | ignored => exact .inl rfl
    | shared => exact .inr ⟨rfl, fuels⟩
    | excluded => contradiction
  spend {_ _ fuel _} fuels := by
    rw [equal] at fuels
    refine ⟨fuel, fuels, fun _ => ?_⟩
    rw [equal]
  slack slower _ := absurd slower (Nat.not_le_of_lt pace)
  loose slower _ := absurd slower (Nat.not_le_of_lt pace)
  enter _ _ _ fuels := by
    rw [equal] at fuels ⊢
    exact Nat.succ.inj fuels
  whileLoop _ := loops
  forEach _ := loops

/-- Iterators and buffers are the same in both runs. -/
theorem Cells.of_similarity (worlds : link.Worlds)
    (closures : ∀ {world id id'}, (link.cells world).closures id id' → id' = id)
    (iterators : ∀ world, (link.cells world).iterators = fun id id' => id' = id)
    (buffers : ∀ world, (link.cells world).buffers = fun id id' => id' = id)
    (similar : ∀ world, Machine.Similarity (link.machines world)) : link.Cells where
  addRange {world machine machine'} range machines := by
    refine ⟨world, worlds.grown_refl world, ?_, ?_⟩
    · rw [Machine.addRange, Machine.addRange, (similar world).iterators machines]
      exact (similar world).withIterators _ machines
    · refine .iterator ?_
      rw [iterators, (similar world).iterators machines]
  advance {world machine machine' id id'} machines pair := by
    rw [iterators] at pair
    subst pair
    simp only [Machine.advanceIterator, (similar world).iterators machines]
    cases machine.iterators[id']? with
    | none => exact ⟨machines, rfl⟩
    | some range => exact ⟨(similar world).withIterators _ machines, rfl⟩
  addBuffer {world machine machine'} buffer machines := by
    refine ⟨world, worlds.grown_refl world, ?_, ?_⟩
    · rw [Machine.addBuffer, Machine.addBuffer, (similar world).buffers machines]
      exact (similar world).withBuffers _ machines
    · refine .pixelBuffer ?_
      rw [buffers, (similar world).buffers machines]
  updateBuffer {world machine machine' id id'} change machines pair := by
    rw [buffers] at pair
    subst pair
    rw [Machine.updateBuffer, Machine.updateBuffer, (similar world).buffers machines]
    exact (similar world).withBuffers _ machines
  buffer {world machine machine' id id'} machines pair := by
    rw [buffers] at pair
    rw [pair, (similar world).buffers machines]
  display {world _ _ _ _} machines same := by
    rw [(similar world).display machines]
    cases same with
    | itself => rfl
    | closure pair => rw [closures pair]
    | iterator pair =>
      rw [iterators] at pair
      rw [pair]
    | pixelBuffer pair =>
      rw [buffers] at pair
      rw [pair]
  printLine {world _ _} line machines := (similar world).printLine line machines

/-- Worlds know nothing of how deep calls are. -/
theorem Depths.of_level (level : link.deeper = id)
    (limited : link.limits' = link.limits ∨ link.limits.Within link.limits' ∧
      ∀ cause : Fault.Cause, cause.isLimit = true → link.cuts cause)
    (callDepth : ∀ {world machine machine'}, link.machines world machine machine' →
      machine'.callDepth = machine.callDepth)
    (change : ∀ {world machine machine'} (depth : Nat), link.machines world machine machine' →
      link.machines world { machine with callDepth := depth }
        { machine' with callDepth := depth }) : link.Depths where
  limited := limited
  callDepth := callDepth
  entered world := by
    rw [level]
    exact .refl _
  enter machines := by
    rw [level, callDepth machines]
    exact change _ machines
  leave {_ later _ _} grown machines := by
    rw [level] at grown
    refine ⟨later, grown, .refl _, ?_⟩
    rw [callDepth machines]
    exact change _ machines

end Coupling

end PixelScript
