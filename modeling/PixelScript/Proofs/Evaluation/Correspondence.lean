import PixelScript.Machine.Fresh
import PixelScript.Proofs.Evaluation.Pairing

/-! Two runs of code that corresponds. The code of the second run may have other spans, other
names and other forms than that of the first; the machines hold the same values in the same
places throughout, whatever names they have there. -/
namespace PixelScript

/-- Code in other words, and the frames of the two runs. Worlds say which names stand for which
in frames: they grow with the machines. -/
structure Correspondence extends Wording where
  World : Type
  grown : World → World → Prop
  frames : World → Array Bindings → Array Bindings → Prop
  placed : World → Mode → Scope → Prop

namespace Correspondence

variable {α β γ δ : Type} (link : Correspondence)

/-- What evaluation asks of a correspondence: code matches piece by piece, and names are found
and bound in the same frames. -/
structure Lawful : Prop extends link.toWording.Lawful where
  pace : 1 ≤ link.pace
  grown_refl : ∀ world, link.grown world world
  grown_trans : ∀ {first second third}, link.grown first second → link.grown second third →
    link.grown first third
  placed_grown : ∀ {world later mode scope}, link.grown world later →
    link.placed world mode scope → link.placed later mode scope
  size : ∀ {world frames frames'}, link.frames world frames frames' → frames'.size = frames.size
  resolve : ∀ {world mode scope x x'} {machine machine' : Machine},
    link.frames world machine.frames machine'.frames → link.placed world mode scope →
    link.names mode x x' → machine'.resolve? x' scope = machine.resolve? x scope
  /-- A name that is not bound is reported, so it has to be the same in both. -/
  unbound : ∀ {world mode scope x x'} {machine machine' : Machine},
    link.frames world machine.frames machine'.frames → link.placed world mode scope →
    link.names mode x x' → machine.resolve? x scope = none → x' = x
  bind : ∀ {world mode scope x x' frame} {machine machine' : Machine} (value : Value),
    link.frames world machine.frames machine'.frames → link.placed world mode scope →
    link.names mode x x' →
    (scope.head? = some frame ∨ ∃ old, machine.resolve? x scope = some (frame, old)) →
    link.frames world (machine.bindIn frame x value).frames (machine'.bindIn frame x' value).frames
  push : ∀ {world mode scope params inner frames frames'} {bindings bindings' : Bindings},
    link.frames world frames frames' → link.placed world mode scope →
    link.opens mode params inner → (∀ param ∈ params, (bindings.get? param).isSome = true) →
    Table.Related (link.names inner) (fun value value' => value' = value) bindings bindings' →
    ∃ later, link.grown world later ∧ link.frames later (frames.push bindings)
      (frames'.push bindings') ∧ link.placed later inner (frames.size :: scope)

/-- Closures that are made in the same place. -/
structure Closures (world : link.World) (closure closure' : Closure) : Prop where
  scope : closure'.scope = closure.scope
  name : closure'.name = closure.name
  literal : ∃ mode, link.placed world mode closure.scope ∧
    link.Literal mode (closure.params, closure.body) (closure'.params, closure'.body)

/-- Machines in the course of two runs: they differ only in closures and in names. -/
structure Related (world : link.World) (machine machine' : Machine) : Prop where
  frames : link.frames world machine.frames machine'.frames
  closureCount : machine'.closures.size = machine.closures.size
  closures : ∀ (id : ClosureId) (closure closure' : Closure), machine.closures[id]? = some closure →
    machine'.closures[id]? = some closure' → link.Closures world closure closure'
  iterators : machine'.iterators = machine.iterators
  buffers : machine'.buffers = machine.buffers
  methods : machine'.methods = machine.methods
  console : machine'.console = machine.console
  callDepth : machine'.callDepth = machine.callDepth

variable {link}

theorem Closures.grown (lawful : link.Lawful) {world later : link.World}
    {closure closure' : Closure} (grown : link.grown world later)
    (same : link.Closures world closure closure') : link.Closures later closure closure' where
  scope := same.scope
  name := same.name
  literal := by
    obtain ⟨mode, placed, literal⟩ := same.literal
    exact ⟨mode, lawful.placed_grown grown placed, literal⟩

namespace Related

variable {world later : link.World} {machine machine' : Machine}

/-- Only closures look into the world beside the frames. -/
theorem with_frames (lawful : link.Lawful) (related : link.Related world machine machine')
    (grown : link.grown world later) {frames frames' : Array Bindings}
    (same : link.frames later frames frames') :
    link.Related later { machine with frames := frames } { machine' with frames := frames' } :=
  { related with
    frames := same
    closures := fun id closure closure' stored stored' =>
      (related.closures id closure closure' stored stored').grown lawful grown }

theorem addClosure {closure closure' : Closure} (related : link.Related world machine machine')
    (same : link.Closures world closure closure') :
    link.Related world (machine.addClosure closure).2 (machine'.addClosure closure').2 :=
  { related with
    closureCount := by simp [Machine.addClosure, related.closureCount]
    closures := by
      intro id first second stored stored'
      simp only [Machine.addClosure, Array.getElem?_push, related.closureCount] at stored stored'
      split at stored
      next new =>
        rw [if_pos new] at stored'
        obtain rfl := Option.some.inj stored
        obtain rfl := Option.some.inj stored'
        exact same
      next old =>
        rw [if_neg old] at stored'
        exact related.closures id first second stored stored' }

/-- A handle leads to a closure in both machines or in none. -/
theorem closure (related : link.Related world machine machine') (id : ClosureId) :
    Option.Rel (link.Closures world) machine.closures[id]? machine'.closures[id]? := by
  cases stored : machine.closures[id]? with
  | none =>
    have outside : machine'.closures.size ≤ id := by
      rw [related.closureCount]
      exact Array.getElem?_eq_none_iff.mp stored
    rw [Array.getElem?_eq_none outside]
    exact .none
  | some closure =>
    have inside : id < machine'.closures.size := by
      rw [related.closureCount]
      exact (Array.getElem?_eq_some_iff.mp stored).1
    rw [Array.getElem?_eq_getElem inside]
    exact .some (related.closures id _ _ stored (Array.getElem?_eq_getElem inside))

theorem display (related : link.Related world machine machine') :
    machine'.display = machine.display := by
  funext value
  cases value with
  | closure id =>
    simp only [Machine.display]
    have stored := related.closure id
    generalize machine.closures[id]? = first, machine'.closures[id]? = second at stored ⊢
    cases stored with
    | none => rfl
    | some same => simp only [Option.bind_some, same.name]
  | pixelBuffer id => simp only [Machine.display, related.buffers]
  | _ => rfl

theorem similarity (world : link.World) : Machine.Similarity (link.Related world) where
  display := display
  buffers := buffers
  iterators := iterators
  withBuffers _ related := { related with buffers := rfl }
  withIterators _ related := { related with iterators := rfl }
  printLine line related :=
    { related with console := by simp only [Machine.printLine, related.console] }

end Related

variable (link) in
/-- Runs of code that corresponds: the second gets fuel in keeping with the pace. -/
def coupling (limits : Limits) : Coupling where
  toWording := link.toWording
  World := link.World
  grown := link.grown
  limits := limits
  cells _ := .same
  scopes world mode scope scope' := scope' = scope ∧ link.placed world mode scope
  machines := link.Related
  faults _ := link.SameFault
  shortage := .ignored
  fuels _ _ fuel fuel' := link.pace * fuel ≤ fuel'

variable {limits : Limits} {world : link.World} {duty : Duty} {value value' : Value}

theorem usable_iff : (link.coupling limits).Usable world duty value value' ↔ value' = value :=
  ⟨fun usable => Value.linked_same.mp usable.same,
    fun same => ⟨Value.linked_same.mpr same, fun _ _ => trivial⟩⟩

variable (lawful : link.Lawful)
include lawful

theorem worlds : (link.coupling limits).Worlds where
  grown_refl := lawful.grown_refl
  grown_trans := lawful.grown_trans
  cells_grown _ := .refl _
  scopes_grown grown scopes := ⟨scopes.1, lawful.placed_grown grown scopes.2⟩
  binds_grown _ := id

theorem frames_laws : (link.coupling limits).Frames where
  lookup {_ machine machine' _ _ _ x x' _ _} related scopes _ name := by
    obtain ⟨rfl, placed⟩ := scopes
    rw [Machine.lookup?_eq_resolve?, Machine.lookup?_eq_resolve?,
      lawful.resolve related.frames placed name, Option.map_eq_none_iff]
    refine ⟨?_, lawful.unbound related.frames placed name⟩
    cases machine.resolve? x _ with
    | some => exact .some (usable_iff.mpr rfl)
    | none => exact .none
  define {world _ _ _ _ scope _ _ _ value} related scopes _ name same := by
    obtain ⟨rfl, placed⟩ := scopes
    obtain rfl := usable_iff.mp same
    cases scope with
    | nil => exact related
    | cons frame outer =>
      exact related.with_frames lawful (lawful.grown_refl world)
        (lawful.bind value related.frames placed name (.inl rfl))
  assign {world machine _ _ _ _ x _ _ _ _ _ _ value} related scopes _ name same := by
    obtain ⟨rfl, placed⟩ := scopes
    obtain rfl := usable_iff.mp same
    rw [Machine.assign?_eq_resolve?, Machine.assign?_eq_resolve?,
      lawful.resolve related.frames placed name, Option.map_eq_none_iff]
    refine ⟨?_, lawful.unbound related.frames placed name⟩
    cases found : machine.resolve? x _ with
    | none => exact .none
    | some place =>
      exact .some (related.with_frames lawful (lawful.grown_refl world)
        (lawful.bind value related.frames placed name (.inr ⟨place.2, found⟩)))
  openScope related scopes opens bound entries := by
    obtain ⟨rfl, placed⟩ := scopes
    obtain ⟨later, grown, frames, placed⟩ :=
      lawful.push related.frames placed opens bound (entries.weaken usable_iff.mp)
    refine ⟨later, grown, related.with_frames lawful grown frames, ⟨?_, placed⟩, fun _ => trivial⟩
    simp only [Machine.openScope, lawful.size related.frames]
  own _ _ _ := trivial

theorem functions : (link.coupling limits).Functions where
  addClosure {world _ _ mode _ _ _ _ _ _} name related scopes literal := by
    obtain ⟨rfl, placed⟩ := scopes
    refine ⟨world, lawful.grown_refl world, ?_, Value.linked_same.mpr ?_⟩
    · exact related.addClosure ⟨rfl, rfl, mode, placed, literal⟩
    · simp only [Machine.addClosure, related.closureCount]
  closure {_ machine machine' id id'} related same := by
    obtain rfl : id' = id := same
    refine ⟨?_, fun _ => ⟨rfl, .none⟩⟩
    have stored := related.closure id'
    generalize machine.closures[id']? = first, machine'.closures[id']? = second at stored ⊢
    cases stored with
    | none => exact .none
    | some same =>
      obtain ⟨mode, placed, literal⟩ := same.literal
      exact .some ⟨mode, ⟨same.scope, placed⟩, literal⟩
  method {_ machine machine'} kind name related := by
    rw [Machine.method?, Machine.method?, related.methods]
    cases machine.methods.get? (kind, name) with
    | some => exact .some ⟨usable_iff.mpr rfl, fun _ => ⟨rfl, .none⟩⟩
    | none => exact .none
  registerMethod kind name related same _ := by
    obtain rfl := usable_iff.mp same
    exact { related with methods := by simp only [Machine.registerMethod, related.methods] }

theorem coupling_lawful (limits : Limits) : (link.coupling limits).Lawful where
  toLawful := lawful.toLawful
  toWorlds := worlds lawful
  frames := frames_laws lawful
  functions := functions lawful
  cells := .of_similarity (worlds lawful) id (fun _ => rfl) (fun _ => rfl) Related.similarity
  depths := .of_level rfl (.inl rfl) Related.callDepth
    fun _ related => { related with callDepth := rfl }
  faults := .of_same rfl
  fuels := .of_pace rfl lawful.pace rfl trivial

end Correspondence

end PixelScript
