import Mathlib
import PixelScript.Machine.Basic

/-! Where a name is found. Reading a name and assigning to it are two walks from the innermost
frame of a scope outwards, each written for itself; both end at the frame that the name
resolves to. -/
namespace PixelScript

/-- What a table has under a key is one of its entries. -/
theorem Table.mem_of_get? {κ ε : Type} [DecidableEq κ] {table : Table κ ε} {key : κ} {value : ε}
    (found : table.get? key = some value) : (key, value) ∈ table := by
  induction table with
  | nil => contradiction
  | cons first rest ih =>
    rw [Table.get?] at found
    split at found
    next same =>
      obtain rfl := Option.some.inj found
      exact same ▸ List.mem_cons_self
    next => exact List.mem_cons_of_mem first (ih found)

namespace Machine

theorem bindings_openScope (machine : Machine) (scope : Scope) (bindings : Bindings)
    (frame : FrameId) : (machine.openScope scope bindings).2.bindings frame =
      if frame = machine.frames.size then bindings else machine.bindings frame := by
  simp only [Machine.bindings, openScope, Array.getElem?_push]
  split <;> rfl

theorem get?_bindIn (machine : Machine) (frame other : FrameId) (name key : String)
    (value : Value) : ((machine.bindIn frame name value).bindings other).get? key =
      if frame = other ∧ name = key ∧ frame < machine.frames.size then some value
      else (machine.bindings other).get? key := by
  simp only [Machine.bindings, bindIn, Array.getElem?_modify]
  by_cases same : frame = other
  · subst same
    by_cases old : frame < machine.frames.size
    · simp [old]
    · simp [old]
  · simp [same]

theorem size_bindIn (machine : Machine) (frame : FrameId) (name : String) (value : Value) :
    (machine.bindIn frame name value).frames.size = machine.frames.size :=
  Array.size_modify

/-- The innermost frame of a scope that binds a name, with the value bound there. -/
def resolve? (machine : Machine) (name : String) : Scope → Option (FrameId × Value)
  | [] => none
  | frame :: outer =>
    match (machine.bindings frame).get? name with
    | some value => some (frame, value)
    | none => machine.resolve? name outer

theorem lookup?_eq_resolve? (machine : Machine) (scope : Scope) (name : String) :
    machine.lookup? scope name = (machine.resolve? name scope).map Prod.snd := by
  induction scope with
  | nil => rfl
  | cons frame outer ih =>
    rw [lookup?, resolve?, ih]
    cases (machine.bindings frame).get? name <;> rfl

theorem assign?_eq_resolve? (machine : Machine) (scope : Scope) (name : String) (value : Value) :
    machine.assign? scope name value =
      (machine.resolve? name scope).map fun place => machine.bindIn place.1 name value := by
  induction scope with
  | nil => rfl
  | cons frame outer ih =>
    rw [assign?, resolve?, ih]
    cases (machine.bindings frame).get? name <;> rfl

/-- The two walks agree: a name can be assigned to just where it can be read. -/
theorem assign?_eq_none_iff {machine : Machine} {scope : Scope} {name : String} {value : Value} :
    machine.assign? scope name value = none ↔ machine.lookup? scope name = none := by
  rw [assign?_eq_resolve?, lookup?_eq_resolve?, Option.map_eq_none_iff, Option.map_eq_none_iff]

/-- The innermost binding of a name is in a frame of the scope. -/
theorem resolve?_eq_some {machine : Machine} {name : String} {scope : Scope} {frame : FrameId}
    {value : Value} (found : machine.resolve? name scope = some (frame, value)) :
    frame ∈ scope ∧ (machine.bindings frame).get? name = some value := by
  induction scope with
  | nil => simp [resolve?] at found
  | cons inner outer ih =>
    rw [resolve?] at found
    split at found
    next value' bound =>
      obtain ⟨rfl, rfl⟩ := Prod.mk.inj (Option.some.inj found)
      exact ⟨List.mem_cons_self, bound⟩
    next =>
      obtain ⟨outside, bound⟩ := ih found
      exact ⟨List.mem_cons_of_mem _ outside, bound⟩

/-- What a name is found to be is bound in a frame of the scope. -/
theorem exists_of_lookup? {machine : Machine} {name : String} {scope : Scope} {value : Value}
    (found : machine.lookup? scope name = some value) :
    ∃ frame ∈ scope, (machine.bindings frame).get? name = some value := by
  rw [lookup?_eq_resolve?] at found
  obtain ⟨⟨frame, _⟩, resolved, rfl⟩ := Option.map_eq_some_iff.mp found
  obtain ⟨inScope, bound⟩ := resolve?_eq_some resolved
  exact ⟨frame, inScope, bound⟩

/-- An assignment binds the name anew in a frame of the scope that binds it. -/
theorem exists_of_assign? {machine after : Machine} {name : String} {scope : Scope}
    {value : Value} (assigned : machine.assign? scope name value = some after) :
    ∃ frame ∈ scope, ∃ old, (machine.bindings frame).get? name = some old ∧
      after = machine.bindIn frame name value := by
  rw [assign?_eq_resolve?] at assigned
  obtain ⟨⟨frame, old⟩, resolved, rfl⟩ := Option.map_eq_some_iff.mp assigned
  obtain ⟨inScope, bound⟩ := resolve?_eq_some resolved
  exact ⟨frame, inScope, old, bound, rfl⟩

/-- Names are resolved by the frames alone. -/
theorem resolve?_of_frames {machine other : Machine} (same : machine.frames = other.frames)
    (name : String) (scope : Scope) : machine.resolve? name scope = other.resolve? name scope := by
  induction scope with
  | nil => rfl
  | cons frame outer ih => simp only [resolve?, Machine.bindings, same, ih]

theorem lookup?_of_frames {machine other : Machine} (same : machine.frames = other.frames)
    (scope : Scope) (name : String) : machine.lookup? scope name = other.lookup? scope name := by
  rw [lookup?_eq_resolve?, lookup?_eq_resolve?, resolve?_of_frames same]

end Machine

end PixelScript
