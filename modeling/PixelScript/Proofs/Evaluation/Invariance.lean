import PixelScript.Machine.Fresh
import PixelScript.Proofs.Evaluation.Pairing

/-! What holds throughout one run. An invariant is kept by the steps of a machine, and so by all
code that is allowed, since such a run goes together with itself. -/
namespace PixelScript

/-- A value that leads to no closures and no native functions but given ones. -/
def Value.Leads (closures : ClosureId → Prop) (natives : Native → Prop) : Value → Prop
  | closure id => closures id
  | native function => natives function
  | _ => True

theorem Value.Leads.weaken {closures closures' : ClosureId → Prop}
    {natives natives' : Native → Prop} {value : Value} (leads : value.Leads closures natives)
    (ids : ∀ id, closures id → closures' id)
    (functions : ∀ function, natives function → natives' function) :
    value.Leads closures' natives' := by
  cases value with
  | closure id => exact ids id leads
  | native function => exact functions function leads
  | _ => trivial

theorem Value.Leads.of_kind {closures : ClosureId → Prop} {natives : Native → Prop} {value : Value}
    (other : value.kind ≠ .function) : value.Leads closures natives := by
  cases value with
  | closure | native => exact absurd rfl other
  | _ => trivial

/-- All that the frames, the methods and the closures of a machine lead to is as it should be. -/
structure Machine.Holding (bound : FrameId → String → Value → Prop) (sent : String → Value → Prop)
    (made : ClosureId → Closure → Prop) (machine : Machine) : Prop where
  bindings : ∀ frame name value, (machine.bindings frame).get? name = some value →
    bound frame name value
  methods : ∀ kind name value, machine.method? kind name = some value → sent name value
  closures : ∀ (id : ClosureId) closure, machine.closures[id]? = some closure → made id closure

namespace Machine.Holding

variable {bound bound' : FrameId → String → Value → Prop} {sent sent' : String → Value → Prop}
  {made made' : ClosureId → Closure → Prop} {machine machine' : Machine}

/-- A fresh machine holds words and ready-made functions, each under its own name. -/
theorem fresh (silent : Bool)
    (word : ∀ {frame name value}, value.kind ≠ .function → bound frame name value)
    (loop : ∀ {frame}, bound frame Native.whileLoop.name (.native .whileLoop))
    (global : ∀ {frame} (function : GlobalFunction),
      bound frame function.name (.native (.global function)))
    (builtin : ∀ method : BuiltinMethod, sent method.name (.native (.builtin method))) :
    (Machine.fresh silent).Holding bound sent made where
  bindings frame name value found := by
    have inside : (name, value) ∈ globalBindings := by
      cases frame with
      | zero => exact Table.mem_of_get? found
      | succ => contradiction
    obtain first | more := List.mem_append.mp inside
    · simp only [List.mem_cons, Prod.mk.injEq, List.not_mem_nil, or_false] at first
      obtain ⟨_, rfl⟩ | ⟨_, rfl⟩ | ⟨_, rfl⟩ | ⟨rfl, rfl⟩ := first
      · exact word (by simp [Value.kind])
      · exact word (by simp [Value.kind])
      · exact word (by simp [Value.kind])
      · exact loop
    · obtain ⟨function, _, same⟩ := List.mem_map.mp more
      cases same
      exact global function
  methods kind name value found := by
    obtain ⟨method, _, same⟩ := List.mem_map.mp (Table.mem_of_get? found)
    cases same
    exact builtin method
  closures id closure stored := by
    contradiction

theorem weaken (holding : machine.Holding bound sent made)
    (bindings : ∀ {frame name value}, bound frame name value → bound' frame name value)
    (methods : ∀ {name value}, sent name value → sent' name value)
    (closures : ∀ {id closure}, made id closure → made' id closure) :
    machine.Holding bound' sent' made' where
  bindings frame name value found := bindings (holding.bindings frame name value found)
  methods kind name value found := methods (holding.methods kind name value found)
  closures id closure stored := closures (holding.closures id closure stored)

/-- A change to neither frames nor closures nor methods. -/
theorem of_same (holding : machine.Holding bound sent made)
    (frames : machine'.frames = machine.frames) (closures : machine'.closures = machine.closures)
    (methods : machine'.methods = machine.methods) : machine'.Holding bound sent made where
  bindings := by
    simp only [Machine.bindings, frames]
    exact holding.bindings
  methods := by
    simp only [Machine.method?, methods]
    exact holding.methods
  closures := by
    rw [closures]
    exact holding.closures

theorem openScope (holding : machine.Holding bound sent made) (scope : Scope)
    {bindings : Bindings} (fine : ∀ name value, bindings.get? name = some value →
      bound machine.frames.size name value) :
    (machine.openScope scope bindings).2.Holding bound sent made where
  bindings frame name value found := by
    rw [Machine.bindings_openScope] at found
    split at found
    next new => exact new ▸ fine name value found
    next => exact holding.bindings frame name value found
  methods := holding.methods
  closures := holding.closures

theorem bindIn (holding : machine.Holding bound sent made) {frame : FrameId} {name : String}
    {value : Value} (fine : bound frame name value) :
    (machine.bindIn frame name value).Holding bound sent made where
  bindings other key value' found := by
    rw [Machine.get?_bindIn] at found
    split at found
    next here =>
      obtain ⟨rfl, rfl, _⟩ := here
      exact Option.some.inj found ▸ fine
    next => exact holding.bindings other key value' found
  methods := holding.methods
  closures := holding.closures

theorem addClosure (holding : machine.Holding bound sent made) {closure : Closure}
    (fine : made machine.closures.size closure) :
    (machine.addClosure closure).2.Holding bound sent made where
  bindings := holding.bindings
  methods := holding.methods
  closures id closure' stored := by
    simp only [Machine.addClosure, Array.getElem?_push] at stored
    split at stored
    next new => exact new ▸ Option.some.inj stored ▸ fine
    next => exact holding.closures id closure' stored

theorem registerMethod (holding : machine.Holding bound sent made) (kind : ValueKind)
    (name : String) {value : Value} (fine : sent name value) :
    (machine.registerMethod kind name value).Holding bound sent made where
  bindings := holding.bindings
  methods kind' name' value' found := by
    simp only [Machine.method?, Machine.registerMethod, Table.get?_insert] at found
    split at found
    next same =>
      obtain ⟨_, rfl⟩ := Prod.mk.inj same
      exact Option.some.inj found ▸ fine
    next => exact holding.methods kind' name' value' found
  closures := holding.closures

end Machine.Holding

/-- What holds of a run in the course of time. Worlds say what has come about so far. -/
structure Invariant where
  World : Type
  grown : World → World → Prop
  deeper : World → World := id
  limits : Limits
  /-- The code that may run. -/
  allowed : Part → Prop
  /-- The functions that values may be. -/
  closures : World → ClosureId → Prop := fun _ _ => True
  natives : Duty → Native → Prop := fun _ _ => True
  scopes : World → Scope → Prop := fun _ _ => True
  binds : World → Scope → String → Prop := fun _ _ _ => True
  holds : World → Machine → Prop
  faults : Duty → Fault → Prop := fun _ _ => True
  shortage : Shortage := .ignored
  loops : Prop := True
  fuels : World → Nat → Nat → Prop := fun _ _ _ => True

namespace Invariant

variable (inv : Invariant)

/-- The values that code may hold, or call for a duty. -/
abbrev Has (world : inv.World) (duty : Duty) (value : Value) : Prop :=
  value.Leads (inv.closures world) (inv.natives duty)

/-- What calls do to worlds. -/
structure Depths : Prop where
  entered : ∀ {world id}, inv.closures world id → inv.closures (inv.deeper world) id
  enter : ∀ {world machine}, inv.holds world machine →
    inv.holds (inv.deeper world) { machine with callDepth := machine.callDepth + 1 }
  leave : ∀ {world later machine}, inv.grown (inv.deeper world) later → inv.holds later machine →
    ∃ last, inv.grown world last ∧ (∀ id, inv.closures later id → inv.closures last id) ∧
      inv.holds last { machine with callDepth := machine.callDepth - 1 }

/-- Which faults a run may have. -/
structure Faults : Prop where
  loosen : ∀ {duty outer fault}, Duty.Within duty outer → inv.faults duty fault →
    inv.faults outer fault
  raise : ∀ {duty cause}, Duty.Raises duty cause → inv.faults duty ⟨cause, none⟩
  builtin : ∀ {duty method} (kind : ValueKind), inv.natives duty (.builtin method) →
    inv.faults duty ⟨.unknownOperator method.name kind, none⟩
  expression : ∀ {value fault}, inv.allowed (.expr value) →
    inv.faults (.node (.expr value)) fault → inv.faults .settled (fault.orPlacedAt value.span)
  statement : ∀ {stmt fault}, inv.allowed (.stmt stmt) →
    inv.faults (.node (.stmt stmt)) fault → inv.faults .settled (fault.orPlacedAt stmt.span)
  iterable : ∀ {x value body s} (kind : ValueKind), inv.allowed (.stmt (.forEach x value body s)) →
    inv.faults (.node (.stmt (.forEach x value body s))) ⟨.notIterable kind, some value.span⟩

/-- How fuel is used up. -/
structure Fuels : Prop where
  grown : ∀ {world later weight fuel}, inv.grown world later → inv.fuels world weight fuel →
    inv.fuels later weight fuel
  short : ∀ {world weight}, inv.fuels world weight 0 → inv.shortage = .ignored
  spend : ∀ {world weight less fuel}, inv.fuels world weight (fuel + 1) →
    less < weight ∨ inv.loops → inv.fuels world less fuel
  enter : ∀ {world machine body fuel}, inv.holds world machine →
    machine.callDepth < inv.limits.maxCallDepth → inv.allowed (.block body) →
    inv.fuels world 1 (fuel + 1) → inv.fuels (inv.deeper world) (sizeOf body + 3) fuel
  whileLoop : ∀ {duty}, inv.natives duty .whileLoop → inv.loops
  forEach : ∀ {x iterable body span},
    inv.allowed (.stmt (.forEach x iterable body span)) → inv.loops

/-- What is asked of an invariant. -/
structure Lawful : Prop where
  inherited : ∀ {part child}, inv.allowed part → child ∈ part.children → inv.allowed child
  grown_refl : ∀ world, inv.grown world world
  grown_trans : ∀ {world later last}, inv.grown world later → inv.grown later last →
    inv.grown world last
  closures_grown : ∀ {world later id}, inv.grown world later → inv.closures world id →
    inv.closures later id
  scopes_grown : ∀ {world later scope}, inv.grown world later → inv.scopes world scope →
    inv.scopes later scope
  binds_grown : ∀ {world later scope name}, inv.grown world later → inv.binds world scope name →
    inv.binds later scope name
  own : ∀ {world part body scope name}, inv.allowed part → body ∈ part.blocks →
    body.isFunctionBody = true → inv.binds world scope name
  lookup : ∀ {world machine scope frame x span value}, inv.holds world machine →
    inv.scopes world scope → frame ∈ scope → inv.allowed (.expr (.identifier x span)) →
    (machine.bindings frame).get? x = some value → inv.Has world .call value
  define : ∀ {world machine frame outer x value}, inv.holds world machine →
    inv.binds world (frame :: outer) x → inv.Has world .call value →
    inv.holds world (machine.bindIn frame x value)
  assign : ∀ {world machine frame x e span old value}, inv.holds world machine →
    inv.allowed (.stmt (.assign x e span)) → (machine.bindings frame).get? x = some old →
    inv.Has world .call value → inv.holds world (machine.bindIn frame x value)
  openScope : ∀ {world machine scope} {bindings : Bindings}, inv.holds world machine →
    inv.scopes world scope →
    (∀ name value, bindings.get? name = some value → inv.Has world .call value) →
    ∃ later, inv.grown world later ∧ inv.holds later (machine.openScope scope bindings).2 ∧
      inv.scopes later (machine.openScope scope bindings).1 ∧
      ∀ name, inv.binds later (machine.openScope scope bindings).1 name
  addClosure : ∀ {world machine params body scope} (name : Option String),
    inv.holds world machine → inv.scopes world scope → inv.allowed (.block body) →
    ∃ later, inv.grown world later ∧
      inv.holds later (machine.addClosure ⟨params, body, scope, name⟩).2 ∧
      inv.closures later machine.closures.size
  closure : ∀ {world machine id closure}, inv.holds world machine → inv.closures world id →
    machine.closures[id]? = some closure →
    inv.scopes world closure.scope ∧ inv.allowed (.block closure.body)
  missing : ∀ {world} {machine : Machine} {id : ClosureId}, inv.holds world machine →
    inv.closures world id → machine.closures[id]? = none →
    inv.faults .call ⟨.notCallable .function, none⟩
  method : ∀ {world machine kind name value}, inv.holds world machine →
    machine.method? kind name = some value → inv.Has world (.send name) value ∧
      (value.kind ≠ .function → inv.faults (.send name) ⟨.notCallable value.kind, none⟩)
  registerMethod : ∀ {world machine value} (kind : ValueKind) (name : String),
    inv.holds world machine → inv.Has world .call value → value.kind = .function →
    inv.holds world (machine.registerMethod kind name value)
  /-- Iterators, buffers and the console do not matter. -/
  same : ∀ {world machine} (iterators : Array Range) (buffers : Array PixelBuffer)
    (console : Console), inv.holds world machine →
    inv.holds world { machine with iterators, buffers, console }
  depths : inv.Depths
  faults : inv.Faults
  fuels : inv.Fuels

variable {inv}

theorem Depths.of_level (level : inv.deeper = id)
    (change : ∀ {world machine} (depth : Nat), inv.holds world machine →
      inv.holds world { machine with callDepth := depth }) : inv.Depths where
  entered closure := by rwa [level]
  enter holds := by
    rw [level]
    exact change _ holds
  leave {_ later _} grown holds := by
    rw [level] at grown
    exact ⟨later, grown, fun _ => id, change _ holds⟩

theorem Faults.of_all (all : ∀ duty fault, inv.faults duty fault) : inv.Faults := by
  constructor <;> intros <;> exact all _ _

theorem Fuels.of_all (all : ∀ world weight fuel, inv.fuels world weight fuel)
    (ignored : inv.shortage = .ignored) (loops : inv.loops) : inv.Fuels where
  grown _ _ := all _ _ _
  short _ := ignored
  spend _ _ := all _ _ _
  enter _ _ _ _ := all _ _ _
  whileLoop _ := loops
  forEach _ := loops

variable (inv) in
/-- A run that goes together with itself. -/
def coupling : Coupling where
  toWording := .same inv.allowed
  World := inv.World
  grown := inv.grown
  deeper := inv.deeper
  limits := inv.limits
  cells world := { Link.same with closures := fun id id' => id' = id ∧ inv.closures world id }
  natives := inv.natives
  scopes world _ scope scope' := scope' = scope ∧ inv.scopes world scope
  binds := inv.binds
  machines world machine machine' := machine' = machine ∧ inv.holds world machine
  faults duty fault fault' := fault' = fault ∧ inv.faults duty fault
  shortage := inv.shortage
  loops := inv.loops
  fuels world weight fuel fuel' := fuel' = fuel ∧ inv.fuels world weight fuel

variable {world : inv.World} {duty : Duty} {value value' : Value}

theorem usable_iff :
    inv.coupling.Usable world duty value value' ↔ value' = value ∧ inv.Has world duty value := by
  constructor
  · rintro ⟨same, allowed⟩
    cases same with
    | closure pair => exact ⟨congrArg _ pair.1, pair.2⟩
    | iterator pair => exact ⟨congrArg _ pair, trivial⟩
    | pixelBuffer pair => exact ⟨congrArg _ pair, trivial⟩
    | itself plain =>
      refine ⟨rfl, ?_⟩
      cases value with
      | native function => exact allowed function rfl
      | closure => contradiction
      | _ => trivial
  · rintro ⟨rfl, has⟩
    cases value' with
    | closure => exact .of_handle (.closure ⟨rfl, has⟩) rfl
    | iterator => exact .of_handle (.iterator rfl) rfl
    | pixelBuffer => exact .of_handle (.pixelBuffer rfl) rfl
    | native =>
      refine ⟨.itself rfl, ?_⟩
      rintro _ ⟨⟩
      exact has
    | _ => exact .plain rfl (by simp [Value.kind])

namespace Lawful

variable (lawful : inv.Lawful)
include lawful

theorem worlds : inv.coupling.Worlds where
  grown_refl := lawful.grown_refl
  grown_trans := lawful.grown_trans
  cells_grown grown :=
    { Link.Grows.refl _ with
      closures := fun _ _ pair => ⟨pair.1, lawful.closures_grown grown pair.2⟩ }
  scopes_grown grown scopes := ⟨scopes.1, lawful.scopes_grown grown scopes.2⟩
  binds_grown := lawful.binds_grown

theorem frames : inv.coupling.Frames where
  lookup {_ machine _ _ _ scope _ x _ _} machines scopes code name := by
    obtain ⟨rfl, holds⟩ := machines
    obtain ⟨rfl, fine⟩ := scopes
    obtain rfl := name
    refine ⟨?_, fun _ => rfl⟩
    cases found : Machine.lookup? _ scope x with
    | none => exact .none
    | some value =>
      obtain ⟨frame, inScope, bound⟩ := Machine.exists_of_lookup? found
      exact .some (usable_iff.mpr ⟨rfl, lawful.lookup holds fine inScope code.2 bound⟩)
  define {_ _ _ _ _ scope _ _ _ _} machines scopes binds name same := by
    obtain ⟨rfl, holds⟩ := machines
    obtain ⟨rfl, _⟩ := scopes
    obtain rfl := name
    obtain ⟨rfl, has⟩ := usable_iff.mp same
    cases scope with
    | nil => exact ⟨rfl, holds⟩
    | cons => exact ⟨rfl, lawful.define holds binds has⟩
  assign machines scopes code name same := by
    obtain ⟨rfl, holds⟩ := machines
    obtain ⟨rfl, _⟩ := scopes
    obtain rfl := name
    obtain ⟨rfl, has⟩ := usable_iff.mp same
    refine ⟨?_, fun _ => rfl⟩
    cases assigned : Machine.assign? _ _ _ _ with
    | none => exact .none
    | some after =>
      obtain ⟨frame, _, _, bound, rfl⟩ := Machine.exists_of_assign? assigned
      exact .some ⟨rfl, lawful.assign holds code.2 bound has⟩
  openScope machines scopes _ _ entries := by
    obtain ⟨rfl, holds⟩ := machines
    obtain ⟨rfl, fine⟩ := scopes
    obtain rfl := entries.eq_of_eq (fun name => name) fun usable => (usable_iff.mp usable).1
    have has : ∀ name value, Table.get? name _ = some value → inv.Has _ .call value :=
      fun _ _ found =>
        (usable_iff.mp (List.forall₂_same.mp entries _ (Table.mem_of_get? found)).2).2
    obtain ⟨later, grown, holds, fine, binds⟩ := lawful.openScope holds fine has
    exact ⟨later, grown, ⟨rfl, holds⟩, ⟨rfl, fine⟩, binds⟩
  own code := lawful.own code.2

theorem functions : inv.coupling.Functions where
  addClosure name machines scopes literal := by
    obtain ⟨rfl, holds⟩ := machines
    obtain ⟨rfl, fine⟩ := scopes
    obtain ⟨rfl, rfl, allowed⟩ := Wording.eq_of_same_literal literal
    obtain ⟨later, grown, holds, new⟩ := lawful.addClosure name holds fine allowed
    exact ⟨later, grown, ⟨rfl, holds⟩, .closure ⟨rfl, new⟩⟩
  closure {_ _ machine' _ id'} machines pair := by
    obtain ⟨rfl, holds⟩ := machines
    obtain ⟨rfl, known⟩ := pair
    refine ⟨?_, fun none => ⟨rfl, lawful.missing holds known none⟩⟩
    cases stored : machine'.closures[id']? with
    | none => exact .none
    | some closure =>
      obtain ⟨fine, allowed⟩ := lawful.closure holds known stored
      exact .some ⟨(), ⟨rfl, fine⟩, Wording.same_literal allowed⟩
  method kind name machines := by
    obtain ⟨rfl, holds⟩ := machines
    cases found : Machine.method? _ kind name with
    | none => exact .none
    | some value =>
      obtain ⟨has, refused⟩ := lawful.method holds found
      exact .some ⟨usable_iff.mpr ⟨rfl, has⟩, fun other => ⟨rfl, refused other⟩⟩
  registerMethod kind name machines same callable := by
    obtain ⟨rfl, holds⟩ := machines
    obtain ⟨rfl, has⟩ := usable_iff.mp same
    exact ⟨rfl, lawful.registerMethod kind name holds has callable⟩

theorem similarity (world : inv.World) : Machine.Similarity (inv.coupling.machines world) where
  display machines := by rw [machines.1]
  buffers machines := by rw [machines.1]
  iterators machines := by rw [machines.1]
  withBuffers _ machines := ⟨by rw [machines.1], lawful.same _ _ _ machines.2⟩
  withIterators _ machines := ⟨by rw [machines.1], lawful.same _ _ _ machines.2⟩
  printLine _ machines := ⟨by rw [machines.1], lawful.same _ _ _ machines.2⟩

theorem depths_laws : inv.coupling.Depths where
  limited := .inl rfl
  callDepth machines := by rw [machines.1]
  entered _ :=
    { Link.Grows.refl _ with
      closures := fun _ _ pair => ⟨pair.1, lawful.depths.entered pair.2⟩ }
  enter machines := by
    obtain ⟨rfl, holds⟩ := machines
    exact ⟨rfl, lawful.depths.enter holds⟩
  leave grown machines := by
    obtain ⟨rfl, holds⟩ := machines
    obtain ⟨last, grown, known, holds⟩ := lawful.depths.leave grown holds
    refine ⟨last, grown, ?_, rfl, holds⟩
    exact { Link.Grows.refl _ with closures := fun _ _ pair => ⟨pair.1, known _ pair.2⟩ }

theorem faults_laws : inv.coupling.Faults where
  loosen within alike := ⟨alike.1, lawful.faults.loosen within alike.2⟩
  raise raises := ⟨rfl, lawful.faults.raise raises⟩
  builtin kind allowed := ⟨rfl, lawful.faults.builtin kind allowed⟩
  expression code span alike := by
    obtain ⟨rfl, allowed⟩ := alike
    obtain ⟨⟨⟩, fine⟩ := code
    exact ⟨rfl, lawful.faults.expression fine allowed⟩
  statement code span alike := by
    obtain ⟨rfl, allowed⟩ := alike
    obtain ⟨⟨⟩, fine⟩ := code
    exact ⟨rfl, lawful.faults.statement fine allowed⟩
  iterable kind code span := by
    obtain ⟨⟨⟩, fine⟩ := code
    exact ⟨rfl, lawful.faults.iterable kind fine⟩

theorem fuels_laws : inv.coupling.Fuels where
  grown grown fuels := ⟨fuels.1, lawful.fuels.grown grown fuels.2⟩
  short fuels := .inl (lawful.fuels.short fuels.2)
  spend {_ _ fuel _} fuels :=
    ⟨fuel, fuels.1, fun smaller => ⟨rfl, lawful.fuels.spend fuels.2 smaller⟩⟩
  slack slower _ := absurd slower (Nat.not_le_of_lt (Nat.lt_succ_self 1))
  loose slower _ := absurd slower (Nat.not_le_of_lt (Nat.lt_succ_self 1))
  enter machines shallow code fuels :=
    ⟨Nat.succ.inj fuels.1, lawful.fuels.enter machines.2 shallow code.2 fuels.2⟩
  whileLoop := lawful.fuels.whileLoop
  forEach code := lawful.fuels.forEach code.2

theorem coupling_lawful : inv.coupling.Lawful where
  toLawful := Wording.same_lawful lawful.inherited
  toWorlds := lawful.worlds
  frames := lawful.frames
  functions := lawful.functions
  cells := .of_similarity lawful.worlds (fun pair => pair.1) (fun _ => rfl) (fun _ => rfl)
    lawful.similarity
  depths := lawful.depths_laws
  faults := lawful.faults_laws
  fuels := lawful.fuels_laws

end Lawful

variable (inv) in
/-- How a run ends that keeps to the invariant. -/
inductive Ends (world : inv.World) (duty : Duty) : Outcome Value → Prop
  | value {later : inv.World} {result : Value} {machine : Machine} (grown : inv.grown world later)
      (holds : inv.holds later machine) (has : inv.Has later .call result) :
      Ends world duty (.value result machine)
  | fault {later : inv.World} {raised : Fault} {machine : Machine} (grown : inv.grown world later)
      (holds : inv.holds later machine) (allowed : inv.faults duty raised) :
      Ends world duty (.fault raised machine)
  | outOfFuel (short : inv.shortage ≠ .excluded) : Ends world duty .outOfFuel

theorem Ends.holds_of_machine? {outcome : Outcome Value} {after : Machine}
    (ends : inv.Ends world duty outcome) (left : outcome.machine? = some after) :
    ∃ later, inv.grown world later ∧ inv.holds later after := by
  cases ends with
  | value grown holds | fault grown holds =>
    obtain rfl := Option.some.inj left
    exact ⟨_, grown, holds⟩
  | outOfFuel => contradiction

theorem Ends.of_coupling {outcome : Outcome Value}
    (ends : inv.coupling.Ends world duty inv.coupling.Values outcome outcome) :
    inv.Ends world duty outcome := by
  cases outcome with
  | value =>
    cases ends with
    | value grown machines usable => exact .value grown machines.2 (usable_iff.mp usable).2
  | fault =>
    cases ends with
    | fault grown machines alike => exact .fault grown machines.2 alike.2
    | cut cut => exact cut.elim
  | outOfFuel =>
    cases ends with
    | outOfFuel allowed =>
      refine .outOfFuel fun excluded => ?_
      obtain ignored | ⟨shared, _⟩ := allowed
      · exact Shortage.noConfusion (ignored.symm.trans excluded)
      · exact Shortage.noConfusion (shared.symm.trans excluded)

variable (inv) in
/-- A job that keeps to the invariant. -/
abbrev Does (world : inv.World) (duty : Duty) (job : Job Value) : Prop :=
  inv.coupling.Pairs world duty inv.coupling.Values job job

namespace Does

variable {scope : Scope}

theorem expression {value : Expr} (scopes : inv.scopes world scope)
    (allowed : inv.allowed (.expr value)) :
    inv.Does world .settled (.expression scope value) := by
  have scopes : inv.coupling.scopes world () scope scope := ⟨rfl, scopes⟩
  exact Coupling.Pairs.expression scopes ⟨rfl, allowed⟩

theorem statement {stmt : Stmt} (scopes : inv.scopes world scope)
    (allowed : inv.allowed (.stmt stmt))
    (owned : ∀ name, stmt.Binds name → inv.binds world scope name) :
    inv.Does world .settled (.statement scope stmt) := by
  have scopes : inv.coupling.scopes world () scope scope := ⟨rfl, scopes⟩
  exact Coupling.Pairs.statement scopes ⟨rfl, allowed⟩ owned

theorem statements {stmts : List Stmt} (scopes : inv.scopes world scope)
    (allowed : inv.allowed (.stmts stmts))
    (owned : ∀ stmt ∈ stmts, ∀ name, stmt.Binds name → inv.binds world scope name) :
    inv.Does world .settled (.statements scope stmts .null) := by
  have scopes : inv.coupling.scopes world () scope scope := ⟨rfl, scopes⟩
  exact Coupling.Pairs.statements scopes ⟨rfl, allowed⟩ owned .null

end Does

/-- All allowed code keeps to the invariant. -/
theorem Lawful.run_ends (lawful : inv.Lawful) {job : Job Value} (does : inv.Does world duty job)
    {fuel : Nat} (enough : inv.fuels world job.weight fuel) {machine : Machine}
    (holds : inv.holds world machine) :
    inv.Ends world duty (job.run inv.limits fuel Value machine) :=
  .of_coupling (Coupling.run_tracks lawful.coupling_lawful does ⟨rfl, enough⟩ _ _ ⟨rfl, holds⟩)

theorem Lawful.eval_ends (lawful : inv.Lawful) {program : Program} {scope : Scope}
    (scopes : inv.scopes world scope) (allowed : inv.allowed (.stmts program.statements))
    (owned : ∀ stmt ∈ program.statements, ∀ name, stmt.Binds name → inv.binds world scope name)
    {fuel : Nat} (enough : inv.fuels world (sizeOf program.statements + 3) fuel)
    {machine : Machine} (holds : inv.holds world machine) :
    inv.Ends world .settled (program.eval inv.limits fuel scope machine) :=
  lawful.run_ends (.statements scopes allowed owned) enough holds

end Invariant

end PixelScript
