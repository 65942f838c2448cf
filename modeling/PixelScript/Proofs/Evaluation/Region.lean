import PixelScript.Proofs.Evaluation.Invariance

/-! Regions of a machine. A computation that starts in a region, and finds nothing there
that leads out of it, stays in the region; and if no code of the region assigns to a
name, the name keeps its values in all frames that were there before. -/
namespace PixelScript

/-- Whether an assignment to a name is among nodes. -/
def Node.Assigned (name : String) (nodes : List Node) : Prop :=
  ∃ value span, Node.stmt (.assign name value span) ∈ nodes

/-- Frames and closures that a computation may come to. -/
structure Territory where
  frames : FrameId → Prop
  closures : ClosureId → Prop

namespace Territory

def Contains (territory : Territory) (scope : Scope) : Prop :=
  ∀ frame ∈ scope, territory.frames frame

/-- All values that the territory leads to are good, and so is the code of its closures; none of
these leads out of it, and all that is still to be made is in it. -/
structure Closed (territory : Territory) (good : Value → Prop) (made : Closure → Prop)
    (machine : Machine) : Prop where
  newFrames : ∀ frame, machine.frames.size ≤ frame → territory.frames frame
  newClosures : ∀ id, machine.closures.size ≤ id → territory.closures id
  holding : machine.Holding (fun frame _ value => territory.frames frame → good value)
    (fun _ value => good value)
    fun id closure => territory.closures id → made closure ∧ territory.Contains closure.scope

namespace Closed

variable {territory : Territory} {good : Value → Prop} {made : Closure → Prop}
  {machine machine' : Machine}

/-- A change to something else than frames, closures and methods. -/
theorem of_same (closed : territory.Closed good made machine)
    (frames : machine'.frames = machine.frames) (closures : machine'.closures = machine.closures)
    (methods : machine'.methods = machine.methods) : territory.Closed good made machine' where
  newFrames := by
    rw [frames]
    exact closed.newFrames
  newClosures := by
    rw [closures]
    exact closed.newClosures
  holding := closed.holding.of_same frames closures methods

theorem openScope (closed : territory.Closed good made machine) (scope : Scope)
    {bindings : Bindings} (fine : ∀ name value, bindings.get? name = some value → good value) :
    territory.Closed good made (machine.openScope scope bindings).2 where
  newFrames frame new := by
    simp only [Machine.openScope, Array.size_push] at new
    exact closed.newFrames frame (Nat.le_of_succ_le new)
  newClosures := closed.newClosures
  holding := closed.holding.openScope scope fun name value found _ => fine name value found

/-- A new frame comes in front of a scope. -/
theorem contains_openScope (closed : territory.Closed good made machine) {scope : Scope}
    (contains : territory.Contains scope) (bindings : Bindings) :
    territory.Contains (machine.openScope scope bindings).1 :=
  List.forall_mem_cons.mpr ⟨closed.newFrames _ (Nat.le_refl _), contains⟩

theorem bindIn (closed : territory.Closed good made machine) (frame : FrameId) (name : String)
    {value : Value} (fine : good value) :
    territory.Closed good made (machine.bindIn frame name value) where
  newFrames := by
    rw [Machine.size_bindIn]
    exact closed.newFrames
  newClosures := closed.newClosures
  holding := closed.holding.bindIn fun _ => fine

theorem addClosure (closed : territory.Closed good made machine) {closure : Closure}
    (fine : made closure) (contains : territory.Contains closure.scope) :
    territory.Closed good made (machine.addClosure closure).2 where
  newFrames := closed.newFrames
  newClosures id new := by
    simp only [Machine.addClosure, Array.size_push] at new
    exact closed.newClosures id (Nat.le_of_succ_le new)
  holding := closed.holding.addClosure fun _ => ⟨fine, contains⟩

theorem registerMethod (closed : territory.Closed good made machine) (kind : ValueKind)
    (name : String) {value : Value} (fine : good value) :
    territory.Closed good made (machine.registerMethod kind name value) where
  newFrames := closed.newFrames
  newClosures := closed.newClosures
  holding := closed.holding.registerMethod kind name fine

theorem lookup? (closed : territory.Closed good made machine) {scope : Scope}
    (contains : territory.Contains scope) {name : String} {value : Value}
    (found : machine.lookup? scope name = some value) : good value := by
  obtain ⟨frame, inScope, bound⟩ := Machine.exists_of_lookup? found
  exact closed.holding.bindings frame name value bound (contains frame inScope)

end Closed

end Territory

/-- A territory with names that nothing in it assigns to. -/
structure Region extends Territory where
  kept : String → Prop

namespace Region

/-- Whether a value leads only into the region. -/
abbrev Has (region : Region) (value : Value) : Prop :=
  value.Leads region.closures fun _ => True

/-- Code of the form that the parser gives it, which assigns to no kept name. -/
structure Allows (region : Region) (part : Part) : Prop where
  isShaped : part.isShaped = true
  unkept : ∀ name, Node.Assigned name part.nodes → ¬ region.kept name

abbrev Closed (region : Region) (machine : Machine) : Prop :=
  region.toTerritory.Closed region.Has (fun closure => region.Allows (.block closure.body)) machine

/-- What may have happened to the frames of a machine: apart from `free` places, each
binds the names that it did, and the kept names to the same values. -/
structure Spares (region : Region) (free : FrameId → String → Prop) (before after : Machine) :
    Prop where
  size : before.frames.size ≤ after.frames.size
  bound : ∀ frame name, frame < before.frames.size → ¬ free frame name →
    ((after.bindings frame).get? name).isSome = ((before.bindings frame).get? name).isSome
  same : ∀ frame name, frame < before.frames.size → ¬ free frame name → region.kept name →
    (after.bindings frame).get? name = (before.bindings frame).get? name

variable {region : Region} {free : FrameId → String → Prop} {before machine machine' : Machine}

theorem Allows.child {part child : Part} (allows : region.Allows part)
    (inside : child ∈ part.children) : region.Allows child where
  isShaped := Part.isShaped_of_mem_children allows.isShaped inside
  unkept := by
    rintro name ⟨value, span, among⟩
    exact allows.unkept name ⟨value, span, Part.nodes_of_mem_children inside among⟩

namespace Spares

theorem refl (machine : Machine) : region.Spares free machine machine :=
  ⟨Nat.le_refl _, fun _ _ _ _ => rfl, fun _ _ _ _ _ => rfl⟩

/-- A change that is not to the frames. -/
theorem of_frames (spares : region.Spares free before machine)
    (frames : machine'.frames = machine.frames) : region.Spares free before machine' := by
  have bindings : machine'.bindings = machine.bindings := by
    funext frame
    simp only [Machine.bindings, frames]
  obtain ⟨size, bound, same⟩ := spares
  constructor
  · rwa [frames]
  · rwa [bindings]
  · rwa [bindings]

theorem openScope (spares : region.Spares free before machine) (scope : Scope)
    (bindings : Bindings) : region.Spares free before (machine.openScope scope bindings).2 := by
  have same : ∀ frame, frame < before.frames.size →
      (machine.openScope scope bindings).2.bindings frame = machine.bindings frame := by
    intro frame old
    have earlier := Nat.lt_of_lt_of_le old spares.size
    rw [Machine.bindings_openScope, if_neg (Nat.ne_of_lt earlier)]
  constructor
  · simp only [Machine.openScope, Array.size_push]
    exact Nat.le_succ_of_le spares.size
  · intro frame name old spared
    rw [same frame old, spares.bound frame name old spared]
  · intro frame name old spared kept
    rw [same frame old, spares.same frame name old spared kept]

/-- Binding a name touches one place, which is free or in a frame that is new. -/
theorem bindIn (spares : region.Spares free before machine) {frame : FrameId} {name : String}
    (fresh : frame < before.frames.size → free frame name) (value : Value) :
    region.Spares free before (machine.bindIn frame name value) := by
  have same : ∀ other key, other < before.frames.size → ¬ free other key →
      ((machine.bindIn frame name value).bindings other).get? key =
        (machine.bindings other).get? key := by
    intro other key old spared
    rw [Machine.get?_bindIn, if_neg]
    rintro ⟨rfl, rfl, _⟩
    exact spared (fresh old)
  constructor
  · rw [Machine.size_bindIn]
    exact spares.size
  · intro other key old spared
    rw [same other key old spared, spares.bound other key old spared]
  · intro other key old spared kept
    rw [same other key old spared, spares.same other key old spared kept]

/-- A bound name stays bound when it gets another value. -/
theorem rebind (spares : region.Spares free before machine) {frame : FrameId} {name : String}
    {old : Value} (bound : (machine.bindings frame).get? name = some old)
    (unkept : ¬ region.kept name) (value : Value) :
    region.Spares free before (machine.bindIn frame name value) := by
  constructor
  · rw [Machine.size_bindIn]
    exact spares.size
  · intro other key earlier spared
    rw [← spares.bound other key earlier spared, Machine.get?_bindIn]
    split
    next here =>
      obtain ⟨rfl, rfl, _⟩ := here
      rw [bound, Option.isSome_some, Option.isSome_some]
    next => rfl
  · intro other key earlier spared kept
    rw [← spares.same other key earlier spared kept, Machine.get?_bindIn, if_neg]
    rintro ⟨rfl, rfl, _⟩
    exact unkept kept

end Spares

/-- Staying in the region, and sparing the frames of an earlier machine. -/
def staying (region : Region) (free : FrameId → String → Prop) (before : Machine)
    (limits : Limits) : Invariant where
  World := Unit
  grown _ _ := True
  limits := limits
  allowed := region.Allows
  closures _ := region.closures
  scopes _ := region.toTerritory.Contains
  binds _ scope name :=
    ∀ frame, scope.head? = some frame → frame < before.frames.size → free frame name
  holds _ machine := region.Closed machine ∧ region.Spares free before machine

theorem staying_lawful (region : Region) (free : FrameId → String → Prop) (before : Machine)
    (limits : Limits) : (region.staying free before limits).Lawful where
  inherited := Allows.child
  grown_refl _ := trivial
  grown_trans _ _ := trivial
  closures_grown _ := id
  scopes_grown _ := id
  binds_grown _ := id
  own allows inside isFunctionBody := by
    rw [Part.isFunctionBody_of_mem_blocks allows.isShaped inside] at isFunctionBody
    contradiction
  lookup {_ _ _ frame _ _ _} holds contains inScope _ bound :=
    holds.1.holding.bindings frame _ _ bound (contains frame inScope)
  define {_ _ frame _ _ _} holds binds has :=
    ⟨holds.1.bindIn frame _ has, holds.2.bindIn (binds frame rfl) _⟩
  assign {_ _ frame _ _ _ _ _} holds allows bound has :=
    have unkept := allows.unkept _ ⟨_, _, List.mem_cons_self⟩
    ⟨holds.1.bindIn frame _ has, holds.2.rebind bound unkept _⟩
  openScope {_ machine scope bindings} holds contains has := by
    obtain ⟨closed, spares⟩ := holds
    refine ⟨(), trivial, ⟨closed.openScope scope has, spares.openScope scope bindings⟩,
      closed.contains_openScope contains bindings, ?_⟩
    -- the frame is new, so its places are in no frame that was there before
    intro name frame innermost old
    have new : machine.frames.size = frame := Option.some.inj innermost
    rw [← new] at old
    exact absurd spares.size (Nat.not_le_of_lt old)
  addClosure name holds contains allows := by
    obtain ⟨closed, spares⟩ := holds
    refine ⟨(), trivial, ⟨?_, spares.of_frames rfl⟩, closed.newClosures _ (Nat.le_refl _)⟩
    exact closed.addClosure allows contains
  closure holds inside stored := (holds.1.holding.closures _ _ stored inside).symm
  missing _ _ _ := trivial
  method holds found := ⟨holds.1.holding.methods _ _ _ found, fun _ => trivial⟩
  registerMethod kind name holds has _ :=
    ⟨holds.1.registerMethod kind name has, holds.2.of_frames rfl⟩
  same _ _ _ holds := ⟨holds.1.of_same rfl rfl rfl, holds.2.of_frames rfl⟩
  depths := .of_level rfl fun _ holds => ⟨holds.1.of_same rfl rfl rfl, holds.2.of_frames rfl⟩
  faults := .of_all fun _ _ => trivial
  fuels := .of_all (fun _ _ _ => trivial) rfl trivial

end Region

end PixelScript
