import PixelScript.Proofs.Evaluation.Frames

/-! Iterators that code cannot get at. If no handle of an iterator can be reached from where a
computation starts, then none can be reached at any later moment, and the computation does
the same whatever range the iterator has. -/
namespace PixelScript

variable {α : Type}

/-- The machine with another range for an iterator. -/
def Machine.withRange (machine : Machine) (id : IteratorId) (range : Range) : Machine :=
  { machine with iterators := machine.iterators.setIfInBounds id range }

theorem Machine.frames_withRange (machine : Machine) (id : IteratorId) (range : Range) :
    (machine.withRange id range).frames = machine.frames :=
  rfl

theorem Machine.display_withRange (machine : Machine) (id : IteratorId) (range : Range) :
    (machine.withRange id range).display = machine.display := by
  funext value
  cases value <;> rfl

/-- A new iterator is another one. -/
theorem Machine.addRange_withRange {machine : Machine} {id : IteratorId}
    (stored : id < machine.iterators.size) (range added : Range) :
    (machine.withRange id range).addRange added =
      ((machine.addRange added).1, (machine.addRange added).2.withRange id range) := by
  have pushed : (machine.iterators.setIfInBounds id range).push added =
      (machine.iterators.push added).setIfInBounds id range := by
    refine Array.ext_getElem? fun index => ?_
    simp only [Array.getElem?_push, Array.getElem?_setIfInBounds, Array.size_setIfInBounds,
      Array.size_push]
    grind
  simp only [addRange, withRange, Array.size_setIfInBounds, pushed]

/-- Another iterator goes on by itself. -/
theorem Machine.advanceIterator_withRange_of_ne (machine : Machine) {id other : IteratorId}
    (differs : other ≠ id) (range : Range) :
    (machine.withRange id range).advanceIterator other = ((machine.advanceIterator other).1,
      (machine.advanceIterator other).2.withRange id range) := by
  have unchanged : (machine.iterators.setIfInBounds id range)[other]? =
      machine.iterators[other]? := Array.getElem?_setIfInBounds_ne differs.symm
  simp only [advanceIterator, withRange, unchanged]
  cases machine.iterators[other]? with
  | none => rfl
  | some range' => simp only [Array.setIfInBounds_comm _ _ differs.symm]

def Outcome.withRange (id : IteratorId) (range : Range) : Outcome α → Outcome α
  | .value result machine => .value result (machine.withRange id range)
  | .fault raised machine => .fault raised (machine.withRange id range)
  | .outOfFuel => .outOfFuel

/-- A territory from which an iterator cannot be reached. -/
structure Outside extends Territory where
  iterator : IteratorId

namespace Outside

variable {outside : Outside} {machine : Machine} {value value' : Value}

/-- Whether a value does not lead to the iterator. -/
def Has (outside : Outside) : Value → Prop
  | .closure id => outside.closures id
  | .iterator id => id ≠ outside.iterator
  | _ => True

/-- The frame of a loop binds one name, at first to null. -/
theorem has_null (outside : Outside) (binding : String) :
    ∀ name value, Table.get? name [(binding, Value.null)] = some value → outside.Has value := by
  intro name value found
  obtain ⟨⟩ := List.mem_singleton.mp (Table.mem_of_get? found)
  trivial

/-- Nothing outside leads to the iterator. -/
structure Closed (outside : Outside) (machine : Machine) : Prop where
  territory : outside.toTerritory.Closed outside.Has (fun _ => True) machine
  stored : outside.iterator < machine.iterators.size

/-- What code in a scope can reach, and all that is still to be made. -/
def of (machine : Machine) (scope : Scope) (id : IteratorId) : Outside :=
  { machine.reach scope with iterator := id }

theorem of_closed {scope : Scope} {id : IteratorId} {range : Range}
    (stored : machine.iterators[id]? = some range)
    (unheld : ¬ machine.Holds scope (.iterator id)) : (of machine scope id).Closed machine where
  territory := by
    refine Machine.closed_reach (fun value holds => ?_) fun _ _ _ _ => trivial
    cases value with
    | closure => exact .inr holds
    | iterator other =>
      rintro rfl
      exact unheld holds
    | _ => trivial
  stored := (Array.getElem?_eq_some_iff.mp stored).1

/-- A run outside, and the same run where the iterator has another range. -/
def secluding (outside : Outside) (range : Range) (limits : Limits) : Coupling where
  toWording := .same fun _ => True
  World := Unit
  grown _ _ := True
  limits := limits
  cells _ :=
    { Link.same with
      closures := fun id id' => id' = id ∧ outside.closures id
      iterators := fun id id' => id' = id ∧ id ≠ outside.iterator }
  scopes _ _ scope scope' := scope' = scope ∧ outside.toTerritory.Contains scope
  machines _ machine machine' :=
    machine' = machine.withRange outside.iterator range ∧ outside.Closed machine
  faults _ := (Wording.same fun _ => True).SameFault
  shortage := .shared
  fuels _ _ fuel fuel' := fuel' = fuel

namespace secluding

variable {range : Range} {limits : Limits} {world : Unit} {duty : Duty}

theorem usable_iff : (outside.secluding range limits).Usable world duty value value' ↔
    value' = value ∧ outside.Has value := by
  constructor
  · rintro ⟨same, _⟩
    cases same with
    | closure pair => exact ⟨congrArg _ pair.1, pair.2⟩
    | iterator pair => exact ⟨congrArg _ pair.1, pair.2⟩
    | pixelBuffer pair => exact ⟨congrArg _ pair, trivial⟩
    | itself plain =>
      refine ⟨rfl, ?_⟩
      cases value with
      | closure | iterator => contradiction
      | _ => trivial
  · rintro ⟨rfl, has⟩
    refine ⟨?_, fun _ _ => trivial⟩
    cases value' with
    | closure => exact .closure ⟨rfl, has⟩
    | iterator => exact .iterator ⟨rfl, has⟩
    | pixelBuffer => exact .pixelBuffer rfl
    | _ => exact .itself rfl

theorem worlds : (outside.secluding range limits).Worlds where
  grown_refl _ := trivial
  grown_trans _ _ := trivial
  cells_grown _ := .refl _
  scopes_grown _ := id
  binds_grown _ := id

theorem frames : (outside.secluding range limits).Frames where
  lookup {_ machine _ _ scope _ x _ _ _} machines scopes _ name := by
    obtain ⟨rfl, closed⟩ := machines
    obtain ⟨rfl, contains⟩ := scopes
    obtain rfl := name
    rw [Machine.lookup?_of_frames (machine.frames_withRange ..)]
    refine ⟨?_, fun _ => rfl⟩
    cases found : machine.lookup? _ _ with
    | some => exact .some (usable_iff.mpr ⟨rfl, closed.territory.lookup? contains found⟩)
    | none => exact .none
  define {_ _ _ _ _ scope' _ _ _ _} machines scopes _ name same := by
    obtain ⟨rfl, closed⟩ := machines
    obtain ⟨rfl, contains⟩ := scopes
    obtain rfl := name
    obtain ⟨rfl, has⟩ := usable_iff.mp same
    cases scope' with
    | nil => exact ⟨rfl, closed⟩
    | cons frame _ => exact ⟨rfl, closed.territory.bindIn frame _ has, closed.stored⟩
  assign {_ machine _ _ _ _ _ _ _ _ _ _ _ _} machines scopes _ name same := by
    obtain ⟨rfl, closed⟩ := machines
    obtain ⟨rfl, contains⟩ := scopes
    obtain rfl := name
    obtain ⟨rfl, has⟩ := usable_iff.mp same
    rw [Machine.assign?_eq_resolve?, Machine.assign?_eq_resolve?,
      Machine.resolve?_of_frames (machine.frames_withRange ..)]
    refine ⟨?_, fun _ => rfl⟩
    cases machine.resolve? _ _ with
    | some place => exact .some ⟨rfl, closed.territory.bindIn place.1 _ has, closed.stored⟩
    | none => exact .none
  openScope {_ _ _ _ scope _ _ _ _ bindings} machines scopes _ _ entries := by
    obtain ⟨rfl, closed⟩ := machines
    obtain ⟨rfl, contains⟩ := scopes
    obtain rfl := entries.eq_of_eq (fun name => name) fun usable => (usable_iff.mp usable).1
    have has : ∀ name value, Table.get? name bindings = some value → outside.Has value :=
      fun _ _ found =>
        (usable_iff.mp (List.forall₂_same.mp entries _ (Table.mem_of_get? found)).2).2
    exact ⟨(), trivial, ⟨rfl, closed.territory.openScope _ has, closed.stored⟩,
      ⟨rfl, closed.territory.contains_openScope contains _⟩, fun _ => trivial⟩
  own _ _ _ := trivial

theorem functions : (outside.secluding range limits).Functions where
  addClosure name machines scopes literal := by
    obtain ⟨rfl, closed⟩ := machines
    obtain ⟨rfl, contains⟩ := scopes
    obtain ⟨rfl, rfl, _⟩ := Wording.eq_of_same_literal literal
    exact ⟨(), trivial, ⟨rfl, closed.territory.addClosure trivial contains, closed.stored⟩,
      .closure ⟨rfl, closed.territory.newClosures _ (Nat.le_refl _)⟩⟩
  closure {_ machine _ _ id'} machines pair := by
    obtain ⟨rfl, closed⟩ := machines
    obtain ⟨rfl, inside⟩ := pair
    refine ⟨?_, fun _ => ⟨rfl, .none⟩⟩
    rw [Machine.withRange]
    cases stored : machine.closures[id']? with
    | none => exact .none
    | some closure =>
      obtain ⟨_, contains⟩ := closed.territory.holding.closures _ _ stored inside
      exact .some ⟨(), ⟨rfl, contains⟩, Wording.same_literal trivial⟩
  method {_ machine _} kind name machines := by
    obtain ⟨rfl, closed⟩ := machines
    rw [show (machine.withRange outside.iterator range).method? kind name =
      machine.method? kind name from rfl]
    cases found : machine.method? kind name with
    | none => exact .none
    | some value =>
      have has := closed.territory.holding.methods _ _ _ found
      exact .some ⟨usable_iff.mpr ⟨rfl, has⟩, fun _ => ⟨rfl, .none⟩⟩
  registerMethod kind name machines same _ := by
    obtain ⟨rfl, closed⟩ := machines
    obtain ⟨rfl, has⟩ := usable_iff.mp same
    exact ⟨rfl, closed.territory.registerMethod kind name has, closed.stored⟩

theorem cells : (outside.secluding range limits).Cells where
  addRange added machines := by
    obtain ⟨rfl, closed⟩ := machines
    rw [Machine.addRange_withRange closed.stored]
    refine ⟨(), trivial, ⟨rfl, closed.territory.of_same rfl rfl rfl, ?_⟩, .iterator ⟨rfl, ?_⟩⟩
    · simp only [Machine.addRange, Array.size_push]
      exact Nat.lt_succ_of_lt closed.stored
    · exact (Nat.ne_of_lt closed.stored).symm
  advance {_ machine _ _ id'} machines pair := by
    obtain ⟨rfl, closed⟩ := machines
    obtain ⟨rfl, differs⟩ := pair
    rw [machine.advanceIterator_withRange_of_ne differs]
    refine ⟨⟨rfl, ?_⟩, rfl⟩
    rw [Machine.advanceIterator]
    split
    · exact closed
    · refine ⟨closed.territory.of_same rfl rfl rfl, ?_⟩
      rw [Array.size_setIfInBounds]
      exact closed.stored
  addBuffer buffer machines := by
    obtain ⟨rfl, closed⟩ := machines
    exact ⟨(), trivial, ⟨rfl, closed.territory.of_same rfl rfl rfl, closed.stored⟩,
      .pixelBuffer rfl⟩
  updateBuffer change machines pair := by
    obtain ⟨rfl, closed⟩ := machines
    obtain rfl := pair
    exact ⟨rfl, closed.territory.of_same rfl rfl rfl, closed.stored⟩
  buffer machines pair := by
    obtain ⟨rfl, _⟩ := machines
    rw [show _ = _ from pair]
    rfl
  display machines same := by
    obtain ⟨rfl, _⟩ := machines
    rw [Machine.display_withRange]
    cases same with
    | itself => rfl
    | closure pair | iterator pair => rw [pair.1]
    | pixelBuffer pair => rw [show _ = _ from pair]
  printLine line machines := by
    obtain ⟨rfl, closed⟩ := machines
    exact ⟨rfl, closed.territory.of_same rfl rfl rfl, closed.stored⟩

theorem lawful (outside : Outside) (range : Range) (limits : Limits) :
    (outside.secluding range limits).Lawful where
  toLawful := Wording.same_lawful fun _ _ => trivial
  toWorlds := worlds
  frames := frames
  functions := functions
  cells := cells
  depths := .of_level rfl (.inl rfl)
    (fun machines => by rw [machines.1]; rfl)
    fun _ machines => ⟨by rw [machines.1]; rfl, machines.2.territory.of_same rfl rfl rfl,
      machines.2.stored⟩
  faults := .of_same rfl
  fuels := .of_equal rfl (Nat.lt_succ_self 1) (by simp [secluding]) trivial

theorem block {scope : Scope} (contains : outside.toTerritory.Contains scope) (range : Range)
    (limits : Limits) (fuel : Nat) (body : Block) :
    (outside.secluding range limits).Tracks () .settled (outside.secluding range limits).Values
      (Evaluation.evalBlock limits fuel scope body)
      (Evaluation.evalBlock limits fuel scope body) := by
  have scopes : (outside.secluding range limits).scopes () () scope scope := ⟨rfl, contains⟩
  have pairs : (outside.secluding range limits).Pairs () .settled
      (outside.secluding range limits).Values (.block scope body) (.block scope body) :=
    .block scopes ⟨rfl, trivial⟩ fun _ _ => trivial
  exact Coupling.run_tracks (lawful outside range limits) pairs rfl

/-- Code that starts outside cannot tell which range the iterator has, and stays outside. -/
theorem ends {outcome outcome' : Outcome Value}
    (ends : (outside.secluding range limits).Ends () duty
      (outside.secluding range limits).Values outcome outcome') :
    outcome' = outcome.withRange outside.iterator range ∧
      ∀ result after, outcome = .value result after → outside.Closed after := by
  cases ends with
  | value _ machines usable =>
    obtain ⟨rfl, closed⟩ := machines
    obtain ⟨rfl, _⟩ := usable_iff.mp usable
    refine ⟨rfl, ?_⟩
    rintro _ _ ⟨⟩
    exact closed
  | fault _ machines alike =>
    obtain ⟨rfl, _⟩ := machines
    obtain rfl := alike.eq id
    refine ⟨rfl, ?_⟩
    rintro _ _ ⟨⟩
  | cut cut => exact cut.elim
  | outOfFuel allowed =>
    obtain ignored | ⟨_, rfl⟩ := allowed
    · contradiction
    · refine ⟨rfl, ?_⟩
      rintro _ _ ⟨⟩

end secluding

end Outside

end PixelScript
