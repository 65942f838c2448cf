import PixelScript.Proofs.Machine.Resolution
import PixelScript.Session.Host

/-! Scopes in the course of any history. Scopes are opened, bound in and assigned through, and
each is known by handles. A frame has a link to the frame around it. Reading a name and
assigning to it are two walks along these links, and a change in one frame shows through
exactly those handles from which the walk comes to this frame before any other that binds the
name. -/
namespace PixelScript

/-- What can be done to scopes. Handles are numbered in the order in which they are made. -/
inductive ScopeStep where
  | root
  | child (handle : Nat)
  | clone (handle : Nat)
  | define (handle : Nat) (name : String) (value : Value)
  | assign (handle : Nat) (name : String) (value : Value)

/-- A machine, the scope of each handle, and the link of each frame to the one around it. -/
structure ScopeStore where
  machine : Machine
  scopes : List Scope
  links : List (Option FrameId)

namespace ScopeStore

def empty (silent : Bool) : ScopeStore :=
  ⟨.empty silent, [], []⟩

def get? (store : ScopeStore) (handle : Nat) (name : String) : Option Value :=
  store.scopes[handle]?.bind (store.machine.lookup? · name)

/-- The frame that definitions through a handle go to. -/
def frame? (store : ScopeStore) (handle : Nat) : Option FrameId :=
  store.scopes[handle]?.bind List.head?

def binding? (store : ScopeStore) (frame : FrameId) (name : String) : Option Value :=
  (store.machine.bindings frame).get? name

def openScope (store : ScopeStore) (outer : Scope) : ScopeStore :=
  let (scope, machine) := store.machine.openScope outer []
  ⟨machine, store.scopes ++ [scope], store.links ++ [outer.head?]⟩

/-- Takes a step, unless there is no such handle or an assigned name is not bound. -/
def take? (store : ScopeStore) : ScopeStep → Option ScopeStore
  | .root => some (store.openScope [])
  | .child handle => store.scopes[handle]?.map store.openScope
  | .clone handle => store.scopes[handle]?.map fun scope =>
      { store with scopes := store.scopes ++ [scope] }
  | .define handle name value => store.scopes[handle]?.map fun scope =>
      { store with machine := store.machine.define scope name value }
  | .assign handle name value => store.scopes[handle]?.bind fun scope =>
      (store.machine.assign? scope name value).map fun machine => { store with machine }

/-- Takes steps one after another; one that fails is left out. -/
def run (store : ScopeStore) : List ScopeStep → ScopeStore
  | [] => store
  | step :: steps => ((store.take? step).getD store).run steps

/-- Reading a name: a walk from a frame along the links to the first binding. -/
inductive Reads (store : ScopeStore) (name : String) : FrameId → Option Value → Prop
  | here (bound : store.binding? frame name = some value) : Reads store name frame (some value)
  | outward (unbound : store.binding? frame name = none)
      (link : store.links[frame]? = some (some outer)) (later : Reads store name outer result) :
      Reads store name frame result
  | nowhere (unbound : store.binding? frame name = none)
      (link : store.links[frame]? = some none) : Reads store name frame none

/-- Assigning to a name: a walk of its own, to the first binding, which is replaced. -/
inductive Writes (store : ScopeStore) (name : String) (value : Value) :
    FrameId → Option Machine → Prop
  | here (bound : store.binding? frame name = some old) :
      Writes store name value frame (some (store.machine.bindIn frame name value))
  | outward (unbound : store.binding? frame name = none)
      (link : store.links[frame]? = some (some outer))
      (later : Writes store name value outer after) :
      Writes store name value frame after
  | nowhere (unbound : store.binding? frame name = none)
      (link : store.links[frame]? = some none) : Writes store name value frame none

/-- A frame lies on the chain of another: links lead there. -/
inductive Around (store : ScopeStore) : FrameId → FrameId → Prop
  | here : Around store frame frame
  | outward (link : store.links[frame]? = some (some outer)) (later : Around store outer other) :
      Around store frame other

/-- Looking for a name comes to a frame: no frame before it on the chain binds the name. -/
inductive Reaches (store : ScopeStore) (name : String) : FrameId → FrameId → Prop
  | here : Reaches store name frame frame
  | outward (unbound : store.binding? frame name = none)
      (link : store.links[frame]? = some (some outer)) (later : Reaches store name outer other) :
      Reaches store name frame other

/-- The nearest frame of a chain that binds a name. -/
def Nearest (store : ScopeStore) (name : String) (frame binder : FrameId) : Prop :=
  store.Reaches name frame binder ∧ store.binding? binder name ≠ none

/-- Two frames find a name in the same frame. -/
def SameBinder (store : ScopeStore) (name : String) (frame frame' : FrameId) : Prop :=
  ∃ binder, store.Nearest name frame binder ∧ store.Nearest name frame' binder

/-- Whatever there was before is still there, and nothing is seen differently. -/
structure Kept (store after : ScopeStore) : Prop where
  frames : ∀ handle < store.scopes.length, after.frame? handle = store.frame? handle
  links : ∀ frame < store.machine.frames.size, after.links[frame]? = store.links[frame]?
  bindings : ∀ frame < store.machine.frames.size, ∀ name,
    after.binding? frame name = store.binding? frame name
  gets : ∀ handle < store.scopes.length, ∀ name, after.get? handle name = store.get? handle name

/-- One handle more, to an empty frame that is linked to `outer`; names are `seen` through it. -/
structure Opened (store : ScopeStore) (outer : Option FrameId) (seen : String → Option Value)
    (after : ScopeStore) : Prop where
  handles : after.scopes.length = store.scopes.length + 1
  frames : after.machine.frames.size = store.machine.frames.size + 1
  frame : after.frame? store.scopes.length = some store.machine.frames.size
  link : after.links[store.machine.frames.size]? = some outer
  blank : ∀ name, after.binding? store.machine.frames.size name = none
  sees : ∀ name, after.get? store.scopes.length name = seen name
  kept : store.Kept after

open Classical in
/-- The same handles and links. Where `sees` holds of its frame, a handle finds the value for
the name; all else is found as before. -/
structure Rebound (store : ScopeStore) (name : String) (value : Value) (sees : FrameId → Prop)
    (after : ScopeStore) : Prop where
  scopes : after.scopes = store.scopes
  links : after.links = store.links
  gets : ∀ handle frame key, store.frame? handle = some frame →
    after.get? handle key = if key = name ∧ sees frame then some value else store.get? handle key

/-- What holds of scopes at any time, and what each step does to them. -/
structure Lawful (store : ScopeStore) : Prop where
  /-- Every frame has a link, and links lead to frames that were opened earlier. -/
  linked : store.links.length = store.machine.frames.size
  earlier : ∀ frame outer : FrameId, store.links[frame]? = some (some outer) → outer < frame
  /-- Every handle has a frame. -/
  framed : ∀ handle < store.scopes.length,
    ∃ frame < store.machine.frames.size, store.frame? handle = some frame
  /-- Reading and assigning walk along the links, and the walks end. -/
  reads : ∀ handle frame name, store.frame? handle = some frame →
    store.Reads name frame (store.get? handle name)
  writes : ∀ handle frame name value, store.frame? handle = some frame →
    store.Writes name value frame ((store.take? (.assign handle name value)).map (·.machine))
  /-- A name has the value that the nearest frame gives it. -/
  found : ∀ handle frame name value, store.frame? handle = some frame →
    (store.get? handle name = some value ↔
      ∃ binder, store.Reaches name frame binder ∧ store.binding? binder name = some value)
  missing : ∀ handle frame name, store.frame? handle = some frame →
    (store.get? handle name = none ↔
      ∀ other, store.Around frame other → store.binding? other name = none)
  /-- A new scope is empty and lies in no other, or in the one that is named. -/
  root : ∃ after, store.take? .root = some after ∧ store.Opened none (fun _ => none) after
  child : ∀ handle frame, store.frame? handle = some frame →
    ∃ after, store.take? (.child handle) = some after ∧
      store.Opened (some frame) (store.get? handle) after
  /-- Another handle to a scope is no other scope. -/
  clone : ∀ handle frame, store.frame? handle = some frame →
    ∃ after, store.take? (.clone handle) = some after ∧ after.machine = store.machine ∧
      after.links = store.links ∧ after.frame? store.scopes.length = some frame ∧ store.Kept after
  shared : ∀ handle handle', store.frame? handle = store.frame? handle' →
    store.get? handle = store.get? handle'
  /-- A definition is seen where looking for the name comes to the frame, and nowhere else. -/
  define : ∀ handle frame name value, store.frame? handle = some frame →
    ∃ after, store.take? (.define handle name value) = some after ∧
      store.Rebound name value (store.Reaches name · frame) after
  /-- Only a name that is not bound cannot be assigned to. -/
  assignable : ∀ handle frame name value, store.frame? handle = some frame →
    (store.take? (.assign handle name value) = none ↔ store.get? handle name = none)
  /-- An assignment is seen where the name is found in the same frame, and nowhere else. -/
  assign : ∀ handle frame name value after, store.frame? handle = some frame →
    store.take? (.assign handle name value) = some after →
      store.Rebound name value (store.SameBinder name frame) after
  /-- A host that assigns to a name that is not bound is told so, and changes no frame. -/
  refused : ∀ handle scope name value limits held, store.scopes[handle]? = some scope →
    store.get? handle name = none →
      ∃ after, (HostAction.assign name value).perform limits scope held store.machine =
        (.notAssignable, after) ∧ after.frames = store.machine.frames

section Walks

variable {store : ScopeStore} {name : String} {frame binder : FrameId}

theorem outer_unique (link : store.links[frame]? = some (some outer))
    (link' : store.links[frame]? = some (some outer')) : outer = outer' :=
  Option.some.inj (Option.some.inj (link.symm.trans link'))

/-- A walk ends in one way. -/
theorem Reads.unique (reads : store.Reads name frame result)
    (reads' : store.Reads name frame result') : result = result' := by
  induction reads with
  | here bound =>
    cases reads' with
    | here bound' => exact bound.symm.trans bound'
    | outward unbound | nowhere unbound => cases bound.symm.trans unbound
  | outward unbound link _ ih =>
    cases reads' with
    | here bound => cases unbound.symm.trans bound
    | outward _ link' later =>
      obtain rfl := outer_unique link link'
      exact ih later
    | nowhere _ link' => cases link.symm.trans link'
  | nowhere unbound link =>
    cases reads' with
    | here bound => cases unbound.symm.trans bound
    | outward _ link' => cases link.symm.trans link'
    | nowhere => rfl

/-- The two walks agree: they end at the same frame, or both nowhere. -/
theorem Reads.agree (reads : store.Reads name frame result)
    (writes : store.Writes name value frame after) : after = none ↔ result = none := by
  induction reads with
  | here bound =>
    cases writes with
    | here => simp
    | outward unbound | nowhere unbound => cases bound.symm.trans unbound
  | outward unbound link _ ih =>
    cases writes with
    | here bound => cases unbound.symm.trans bound
    | outward _ link' later =>
      obtain rfl := outer_unique link link'
      exact ih later
    | nowhere _ link' => cases link.symm.trans link'
  | nowhere unbound link =>
    cases writes with
    | here bound => cases unbound.symm.trans bound
    | outward _ link' => cases link.symm.trans link'
    | nowhere => simp

theorem Reads.eq_some_iff (reads : store.Reads name frame result) :
    result = some value ↔
      ∃ binder, store.Reaches name frame binder ∧ store.binding? binder name = some value := by
  induction reads with
  | @here frame _ bound =>
    constructor
    · rintro ⟨⟩
      exact ⟨frame, .here, bound⟩
    · rintro ⟨binder, reaches, bound'⟩
      cases reaches with
      | here => exact bound.symm.trans bound'
      | outward unbound => cases bound.symm.trans unbound
  | outward unbound link _ ih =>
    rw [ih]
    constructor
    · rintro ⟨binder, reaches, bound⟩
      exact ⟨binder, .outward unbound link reaches, bound⟩
    · rintro ⟨binder, reaches, bound⟩
      cases reaches with
      | here => cases unbound.symm.trans bound
      | outward _ link' later =>
        obtain rfl := outer_unique link link'
        exact ⟨binder, later, bound⟩
  | nowhere unbound link =>
    constructor
    · intro found
      cases found
    · rintro ⟨binder, reaches, bound⟩
      cases reaches with
      | here => cases unbound.symm.trans bound
      | outward _ link' => cases link.symm.trans link'

theorem Reads.eq_none_iff (reads : store.Reads name frame result) :
    result = none ↔ ∀ other, store.Around frame other → store.binding? other name = none := by
  induction reads with
  | @here frame _ bound =>
    constructor
    · intro missing
      cases missing
    · intro unbound
      cases bound.symm.trans (unbound frame .here)
  | outward unbound link _ ih =>
    rw [ih]
    constructor
    · intro further other around
      cases around with
      | here => exact unbound
      | outward link' later =>
        obtain rfl := outer_unique link link'
        exact further other later
    · exact fun all other around => all other (.outward link around)
  | nowhere unbound link =>
    constructor
    · intro _ other around
      cases around with
      | here => exact unbound
      | outward link' => cases link.symm.trans link'
    · exact fun _ => rfl

/-- An assignment that succeeds binds the name anew in the nearest frame that binds it. -/
theorem Writes.nearest (writes : store.Writes name value frame (some after)) :
    ∃ binder, store.Nearest name frame binder ∧
      after = store.machine.bindIn binder name value := by
  generalize ended : some after = result at writes
  induction writes with
  | @here frame _ bound =>
    exact ⟨frame, ⟨.here, by simp [bound]⟩, Option.some.inj ended⟩
  | outward unbound link _ ih =>
    obtain ⟨binder, ⟨reaches, bound⟩, eq⟩ := ih ended
    exact ⟨binder, ⟨.outward unbound link reaches, bound⟩, eq⟩
  | nowhere => cases ended

theorem Nearest.unique (nearest : store.Nearest name frame binder)
    (nearest' : store.Nearest name frame binder') : binder = binder' := by
  obtain ⟨reaches, bound⟩ := nearest
  obtain ⟨reaches', bound'⟩ := nearest'
  induction reaches with
  | here =>
    cases reaches' with
    | here => rfl
    | outward unbound => exact absurd unbound bound
  | outward unbound link _ ih =>
    cases reaches' with
    | here => exact absurd unbound bound'
    | outward _ link' later =>
      obtain rfl := outer_unique link link'
      exact ih bound later

/-- Only frames of the machine bind names. -/
theorem Nearest.lt_size (nearest : store.Nearest name frame binder) :
    binder < store.machine.frames.size := by
  by_contra outside
  refine nearest.2 ?_
  rw [binding?, Machine.bindings, Array.getElem?_eq_none (Nat.le_of_not_lt outside)]
  rfl

/-- Two frames find a name in the same frame if one finds it there and the other comes to it. -/
theorem sameBinder_iff (nearest : store.Nearest name frame binder) :
    store.SameBinder name frame frame' ↔ store.Reaches name frame' binder := by
  constructor
  · rintro ⟨binder', nearest', reaches, _⟩
    rwa [nearest.unique nearest']
  · intro reaches
    exact ⟨binder, nearest, reaches, nearest.2⟩

end Walks

section Binding

variable {store : ScopeStore} {name : String} {value : Value} {target : FrameId}

/-- The store after a name is bound in a frame. -/
def bindIn (store : ScopeStore) (target : FrameId) (name : String) (value : Value) : ScopeStore :=
  { store with machine := store.machine.bindIn target name value }

theorem binding?_bindIn (old : target < store.machine.frames.size) (frame : FrameId)
    (key : String) : (store.bindIn target name value).binding? frame key =
      if target = frame ∧ name = key then some value else store.binding? frame key := by
  simp only [binding?, bindIn, Machine.get?_bindIn, old, and_true]

/-- Another name is found as before. -/
theorem Reads.bindIn_ne (old : target < store.machine.frames.size) (other : key ≠ name)
    (reads : store.Reads key frame result) :
    (store.bindIn target name value).Reads key frame result := by
  have kept (frame : FrameId) :
      (store.bindIn target name value).binding? frame key = store.binding? frame key := by
    rw [binding?_bindIn old, if_neg fun here => other here.2.symm]
  induction reads with
  | here bound => exact .here ((kept _).trans bound)
  | outward unbound link _ ih => exact .outward ((kept _).trans unbound) link ih
  | nowhere unbound link => exact .nowhere ((kept _).trans unbound) link

/-- A name that is bound in a frame is found there by the walks that come to the frame. -/
theorem Reaches.reads_bindIn (old : target < store.machine.frames.size)
    (reaches : store.Reaches name frame target) :
    (store.bindIn target name value).Reads name frame (some value) := by
  induction reaches with
  | here => exact .here (by rw [binding?_bindIn old, if_pos ⟨rfl, rfl⟩])
  | @outward frame outer target unbound link _ ih =>
    by_cases here : target = frame
    · exact .here (by rw [binding?_bindIn old, if_pos ⟨here, rfl⟩])
    · refine .outward ?_ link (ih old)
      rw [binding?_bindIn old, if_neg fun same => here same.1, unbound]

/-- The other walks do not see the change. -/
theorem Reads.bindIn_hidden (old : target < store.machine.frames.size)
    (reads : store.Reads name frame result) (hidden : ¬ store.Reaches name frame target) :
    (store.bindIn target name value).Reads name frame result := by
  have kept (frame : FrameId) (hidden : ¬ store.Reaches name frame target) :
      (store.bindIn target name value).binding? frame name = store.binding? frame name := by
    rw [binding?_bindIn old, if_neg]
    rintro ⟨rfl, _⟩
    exact hidden .here
  induction reads with
  | here bound => exact .here ((kept _ hidden).trans bound)
  | outward unbound link _ ih =>
    refine .outward ((kept _ hidden).trans unbound) link (ih fun reaches => ?_)
    exact hidden (.outward unbound link reaches)
  | nowhere unbound link => exact .nowhere ((kept _ hidden).trans unbound) link

open Classical in
/-- Who sees that a name is bound in a frame. -/
theorem Reads.bindIn (old : target < store.machine.frames.size)
    (reads : store.Reads key frame result) :
    (store.bindIn target name value).Reads key frame
      (if key = name ∧ store.Reaches name frame target then some value else result) := by
  by_cases same : key = name
  · subst same
    by_cases reaches : store.Reaches key frame target
    · rw [if_pos ⟨rfl, reaches⟩]
      exact reaches.reads_bindIn old
    · rw [if_neg fun seen => reaches seen.2]
      exact reads.bindIn_hidden old reaches
  · rw [if_neg fun seen => same seen.1]
    exact reads.bindIn_ne old same

end Binding

/-- The scope of a frame is the chain that its links lead along. -/
inductive Follows (links : List (Option FrameId)) : FrameId → Scope → Prop
  | last (link : links[frame]? = some none) : Follows links frame [frame]
  | outward (link : links[frame]? = some (some outer)) (rest : Follows links outer scope) :
      Follows links frame (frame :: scope)

namespace Follows

variable {store : ScopeStore} {links : List (Option FrameId)} {frame : FrameId} {scope : Scope}

theorem head? (follows : Follows links frame scope) : scope.head? = some frame := by
  cases follows <;> rfl

theorem unique (follows : Follows links frame scope) (follows' : Follows links frame scope') :
    scope = scope' := by
  induction follows generalizing scope' with
  | last link =>
    cases follows' with
    | last => rfl
    | outward link' => cases link.symm.trans link'
  | outward link _ ih =>
    cases follows' with
    | last link' => cases link.symm.trans link'
    | outward link' rest =>
      obtain rfl := Option.some.inj (Option.some.inj (link.symm.trans link'))
      rw [ih rest]

/-- Links that are added later do not change a chain. -/
theorem append (follows : Follows links frame scope) (more : List (Option FrameId)) :
    Follows (links ++ more) frame scope := by
  have kept {frame : FrameId} {link : Option FrameId} (known : links[frame]? = some link) :
      (links ++ more)[frame]? = some link := by
    rw [List.getElem?_append_left (List.getElem?_eq_some_iff.mp known).1, known]
  induction follows with
  | last link => exact .last (kept link)
  | outward link _ ih => exact .outward (kept link) ih

theorem mem_lt (follows : Follows links frame scope) : ∀ other ∈ scope, other < links.length := by
  induction follows with
  | last link =>
    intro other here
    obtain rfl := List.mem_singleton.mp here
    exact (List.getElem?_eq_some_iff.mp link).1
  | outward link _ ih =>
    intro other here
    obtain rfl | further := List.mem_cons.mp here
    · exact (List.getElem?_eq_some_iff.mp link).1
    · exact ih other further

/-- Looking a name up in a scope is the walk along its links. -/
theorem reads (follows : Follows store.links frame scope) (name : String) :
    store.Reads name frame (store.machine.lookup? scope name) := by
  induction follows with
  | @last frame link =>
    rw [Machine.lookup?]
    cases bound : (store.machine.bindings frame).get? name with
    | some value => exact .here bound
    | none => exact .nowhere bound link
  | @outward frame outer scope link _ ih =>
    rw [Machine.lookup?]
    cases bound : (store.machine.bindings frame).get? name with
    | some value => exact .here bound
    | none => exact .outward bound link ih

/-- Assigning through a scope is the other walk. -/
theorem writes (follows : Follows store.links frame scope) (name : String) (value : Value) :
    store.Writes name value frame (store.machine.assign? scope name value) := by
  induction follows with
  | @last frame link =>
    rw [Machine.assign?]
    cases bound : (store.machine.bindings frame).get? name with
    | some value => exact .here bound
    | none => exact .nowhere bound link
  | @outward frame outer scope link _ ih =>
    rw [Machine.assign?]
    cases bound : (store.machine.bindings frame).get? name with
    | some value => exact .here bound
    | none => exact .outward bound link ih

end Follows

/-- Every frame has a link to an earlier one, and every scope is a chain of links. -/
structure Sound (store : ScopeStore) : Prop where
  linked : store.links.length = store.machine.frames.size
  earlier : ∀ frame outer : FrameId, store.links[frame]? = some (some outer) → outer < frame
  chains : ∀ scope ∈ store.scopes, ∃ frame, Follows store.links frame scope

namespace Sound

variable {store : ScopeStore}

theorem empty (silent : Bool) : (ScopeStore.empty silent).Sound where
  linked := rfl
  earlier frame outer link := by simp [ScopeStore.empty] at link
  chains scope held := by simp [ScopeStore.empty] at held

theorem link_openScope (sound : store.Sound) (outer : Scope) :
    (store.openScope outer).links[store.machine.frames.size]? = some outer.head? := by
  simp [ScopeStore.openScope, ← sound.linked]

/-- A new scope lies in none, or in one that there is. -/
theorem openScope (sound : store.Sound) {outer : Scope}
    (inside : outer = [] ∨ ∃ frame, Follows store.links frame outer) :
    (store.openScope outer).Sound where
  linked := by simp [ScopeStore.openScope, Machine.openScope, sound.linked]
  earlier frame other link := by
    by_cases old : frame < store.links.length
    · rw [ScopeStore.openScope, List.getElem?_append_left old] at link
      exact sound.earlier frame other link
    · have bound : frame < store.links.length + 1 := by
        simpa [ScopeStore.openScope] using (List.getElem?_eq_some_iff.mp link).1
      have last : frame = store.machine.frames.size := by
        rw [← sound.linked]
        exact Nat.le_antisymm (Nat.le_of_lt_succ bound) (Nat.le_of_not_lt old)
      rw [last, sound.link_openScope] at link
      obtain rfl | ⟨frame', follows⟩ := inside
      · cases link
      · rw [last, ← sound.linked]
        exact follows.mem_lt other (List.mem_of_head? (Option.some.inj link))
  chains scope held := by
    have link := sound.link_openScope outer
    obtain old | rfl := List.mem_append.mp held |>.imp_right List.mem_singleton.mp
    · obtain ⟨frame, follows⟩ := sound.chains scope old
      exact ⟨frame, follows.append _⟩
    · refine ⟨store.machine.frames.size, ?_⟩
      obtain rfl | ⟨frame, follows⟩ := inside
      · exact .last link
      · rw [follows.head?] at link
        exact .outward link (follows.append _)

theorem with_machine (sound : store.Sound) {machine : Machine}
    (same : machine.frames.size = store.machine.frames.size) :
    Sound { store with machine := machine } where
  linked := sound.linked.trans same.symm
  earlier := sound.earlier
  chains := sound.chains

theorem take? (sound : store.Sound) (taken : store.take? step = some after) : after.Sound := by
  cases step with
  | root =>
    obtain rfl := Option.some.inj taken
    exact sound.openScope (.inl rfl)
  | child handle =>
    obtain ⟨outer, held, rfl⟩ := Option.map_eq_some_iff.mp taken
    exact sound.openScope (.inr (sound.chains outer (List.mem_of_getElem? held)))
  | clone handle =>
    obtain ⟨scope, held, rfl⟩ := Option.map_eq_some_iff.mp taken
    refine ⟨sound.linked, sound.earlier, fun scope' held' => ?_⟩
    obtain old | rfl := List.mem_append.mp held' |>.imp_right List.mem_singleton.mp
    · exact sound.chains scope' old
    · exact sound.chains scope' (List.mem_of_getElem? held)
  | define handle name value =>
    obtain ⟨scope, held, rfl⟩ := Option.map_eq_some_iff.mp taken
    obtain ⟨frame, follows⟩ := sound.chains scope (List.mem_of_getElem? held)
    cases follows <;> exact sound.with_machine (Machine.size_bindIn ..)
  | assign handle name value =>
    obtain ⟨scope, held, taken⟩ := Option.bind_eq_some_iff.mp taken
    obtain ⟨machine, assigned, rfl⟩ := Option.map_eq_some_iff.mp taken
    obtain ⟨frame, _, _, _, rfl⟩ := Machine.exists_of_assign? assigned
    exact sound.with_machine (Machine.size_bindIn ..)

theorem run (sound : store.Sound) (steps : List ScopeStep) : (store.run steps).Sound := by
  induction steps generalizing store with
  | nil => exact sound
  | cons step steps ih =>
    rw [ScopeStore.run]
    cases taken : store.take? step with
    | none => exact ih sound
    | some after => exact ih (sound.take? taken)

/-- The scope of a handle, by its frame. -/
theorem held (sound : store.Sound) {handle : Nat} (framed : store.frame? handle = some frame) :
    ∃ scope, store.scopes[handle]? = some scope ∧ Follows store.links frame scope := by
  obtain ⟨scope, held, head⟩ := Option.bind_eq_some_iff.mp framed
  obtain ⟨frame', follows⟩ := sound.chains scope (List.mem_of_getElem? held)
  obtain rfl := Option.some.inj (head.symm.trans follows.head?)
  exact ⟨scope, held, follows⟩

/-- The frames of a handle's scope are frames of the machine. -/
theorem mem_lt (sound : store.Sound) (follows : Follows store.links frame scope) :
    ∀ other ∈ scope, other < store.machine.frames.size :=
  sound.linked ▸ follows.mem_lt

theorem frame_lt (sound : store.Sound) (follows : Follows store.links frame scope) :
    frame < store.machine.frames.size :=
  sound.mem_lt follows frame (List.mem_of_head? follows.head?)

end Sound

end ScopeStore

/-- A new frame is not seen from the scopes that there are. -/
theorem Machine.lookup?_openScope {machine : Machine} {scope : Scope} (outer : Scope)
    (old : ∀ frame ∈ scope, frame < machine.frames.size) (name : String) :
    (machine.openScope outer []).2.lookup? scope name = machine.lookup? scope name := by
  induction scope with
  | nil => rfl
  | cons frame scope ih =>
    obtain ⟨here, further⟩ := List.forall_mem_cons.mp old
    rw [Machine.lookup?, Machine.lookup?, Machine.bindings_openScope, if_neg here.ne, ih further]

theorem HostValue.frames_make (scope : Scope) (held : List Value) (machine : Machine)
    (value : HostValue) : (value.make scope held machine).2.frames = machine.frames := by
  cases value <;> rfl

/-- A host cannot assign to a name that is not bound, and its attempt changes no frame. -/
theorem HostAction.assign_refused {machine : Machine} (limits : Limits) (held : List Value)
    (value : HostValue) (missing : machine.lookup? scope name = none) :
    ∃ after, (HostAction.assign name value).perform limits scope held machine =
      (.notAssignable, after) ∧ after.frames = machine.frames := by
  have frames := value.frames_make scope held machine
  refine ⟨_, ?_, frames⟩
  have unbound : (value.make scope held machine).2.assign? scope name
      (value.make scope held machine).1 = none := by
    rw [Machine.assign?_eq_none_iff, Machine.lookup?_of_frames frames]
    exact missing
  simp only [HostAction.perform, unbound]

namespace ScopeStore

section Steps

variable {store : ScopeStore} {handle : Nat} {scope : Scope}

theorem get?_of_held (held : store.scopes[handle]? = some scope) (name : String) :
    store.get? handle name = store.machine.lookup? scope name := by
  rw [get?, held, Option.bind_some]

theorem frame?_append (store : ScopeStore) (machine : Machine) (links : List (Option FrameId))
    (scope : Scope) :
    frame? ⟨machine, store.scopes ++ [scope], links⟩ store.scopes.length = scope.head? := by
  simp [frame?]

/-- A handle more changes nothing for the others if the machine shows them the same. -/
theorem kept_append (sound : store.Sound) {machine : Machine} {more : List (Option FrameId)}
    (bindings : ∀ frame < store.machine.frames.size,
      machine.bindings frame = store.machine.bindings frame)
    (lookup : ∀ (scope : Scope) (name : String),
      (∀ frame ∈ scope, frame < store.machine.frames.size) →
      machine.lookup? scope name = store.machine.lookup? scope name) :
    store.Kept ⟨machine, store.scopes ++ [scope], store.links ++ more⟩ where
  frames handle old := by simp only [frame?, List.getElem?_append_left old]
  links frame old := List.getElem?_append_left (sound.linked ▸ old)
  bindings frame old name := by simp only [binding?, bindings frame old]
  gets handle old name := by
    simp only [get?, List.getElem?_append_left old]
    cases held : store.scopes[handle]? with
    | none => rfl
    | some scope =>
      obtain ⟨frame, follows⟩ := sound.chains scope (List.mem_of_getElem? held)
      exact lookup scope name (sound.mem_lt follows)

/-- Opening a scope in none, or in one that there is. -/
theorem opened_openScope (sound : store.Sound) {outer : Scope}
    (old : ∀ frame ∈ outer, frame < store.machine.frames.size) :
    store.Opened outer.head? (store.machine.lookup? outer) (store.openScope outer) where
  handles := List.length_append
  frames := Array.size_push ..
  frame := store.frame?_append ..
  link := sound.link_openScope outer
  blank name := by
    rw [binding?, openScope, Machine.bindings_openScope, if_pos rfl]
    rfl
  sees name := by
    have held : (store.openScope outer).scopes[store.scopes.length]? =
        some (store.machine.frames.size :: outer) := by simp [openScope, Machine.openScope]
    rw [get?_of_held held, openScope, Machine.lookup?, Machine.bindings_openScope, if_pos rfl]
    exact Machine.lookup?_openScope outer old name
  kept := kept_append sound
    (fun frame old => (store.machine.bindings_openScope outer [] frame).trans (if_neg old.ne))
    fun _ name inside => Machine.lookup?_openScope outer inside name

/-- Who sees that a name is bound in a frame. -/
theorem rebound_bindIn (sound : store.Sound) {target : FrameId}
    (old : target < store.machine.frames.size) (name : String) (value : Value) :
    store.Rebound name value (store.Reaches name · target) (store.bindIn target name value) where
  scopes := rfl
  links := rfl
  gets handle frame key framed := by
    obtain ⟨scope, held, follows⟩ := sound.held framed
    have held' : (store.bindIn target name value).scopes[handle]? = some scope := held
    have follows' : Follows (store.bindIn target name value).links frame scope := follows
    rw [get?_of_held held, get?_of_held held']
    exact (follows'.reads key).unique ((follows.reads key).bindIn old)

end Steps

theorem Rebound.congr {store after : ScopeStore} {sees sees' : FrameId → Prop}
    (rebound : store.Rebound name value sees after) (same : ∀ frame, sees frame ↔ sees' frame) :
    store.Rebound name value sees' after := by
  have eq : sees = sees' := funext fun frame => propext (same frame)
  exact eq ▸ rebound

/-- Handles of one frame are handles of one scope. -/
theorem get?_congr {store : ScopeStore} (sound : store.Sound)
    (same : store.frame? handle = store.frame? handle') :
    store.get? handle = store.get? handle' := by
  cases framed : store.frame? handle with
  | some frame =>
    obtain ⟨scope, held, follows⟩ := sound.held framed
    obtain ⟨scope', held', follows'⟩ := sound.held (same.symm.trans framed)
    obtain rfl := follows.unique follows'
    exact funext fun name => (get?_of_held held name).trans (get?_of_held held' name).symm
  | none =>
    have unknown {handle : Nat} (framed : store.frame? handle = none) :
        store.scopes[handle]? = none := by
      cases held : store.scopes[handle]? with
      | none => rfl
      | some scope =>
        obtain ⟨frame, follows⟩ := sound.chains scope (List.mem_of_getElem? held)
        rw [frame?, held, Option.bind_some, follows.head?] at framed
        cases framed
    funext name
    rw [get?, get?, unknown framed, unknown (same.symm.trans framed)]

theorem lawful_of_sound {store : ScopeStore} (sound : store.Sound) : store.Lawful where
  linked := sound.linked
  earlier := sound.earlier
  framed handle old := by
    obtain ⟨scope, held⟩ : ∃ scope, store.scopes[handle]? = some scope :=
      ⟨_, List.getElem?_eq_getElem old⟩
    obtain ⟨frame, follows⟩ := sound.chains scope (List.mem_of_getElem? held)
    refine ⟨frame, sound.frame_lt follows, ?_⟩
    rw [frame?, held, Option.bind_some, follows.head?]
  reads handle frame name framed := by
    obtain ⟨scope, held, follows⟩ := sound.held framed
    rw [get?_of_held held]
    exact follows.reads name
  writes handle frame name value framed := by
    obtain ⟨scope, held, follows⟩ := sound.held framed
    rw [take?, held, Option.bind_some, Option.map_map]
    change store.Writes name value frame (Option.map id _)
    rw [Option.map_id]
    exact follows.writes name value
  found handle frame name value framed := by
    obtain ⟨scope, held, follows⟩ := sound.held framed
    rw [get?_of_held held]
    exact (follows.reads name).eq_some_iff
  missing handle frame name framed := by
    obtain ⟨scope, held, follows⟩ := sound.held framed
    rw [get?_of_held held]
    exact (follows.reads name).eq_none_iff
  root := by
    have opened : store.Opened _ _ (store.openScope []) := opened_openScope sound (by simp)
    exact ⟨_, rfl, opened⟩
  child handle frame framed := by
    obtain ⟨scope, held, follows⟩ := sound.held framed
    refine ⟨store.openScope scope, by rw [take?, held, Option.map_some], ?_⟩
    have opened := opened_openScope sound (sound.mem_lt follows)
    rw [follows.head?] at opened
    rwa [show store.get? handle = store.machine.lookup? scope from funext (get?_of_held held)]
  clone handle frame framed := by
    obtain ⟨scope, held, follows⟩ := sound.held framed
    refine ⟨{ store with scopes := store.scopes ++ [scope] }, by rw [take?, held, Option.map_some],
      rfl, rfl, (store.frame?_append ..).trans follows.head?, ?_⟩
    rw [← List.append_nil store.links]
    exact kept_append sound (fun _ _ => rfl) fun _ _ _ => rfl
  shared _ _ same := get?_congr sound same
  define handle frame name value framed := by
    obtain ⟨scope, held, follows⟩ := sound.held framed
    refine ⟨store.bindIn frame name value, ?_,
      rebound_bindIn sound (sound.frame_lt follows) name value⟩
    rw [take?, held, Option.map_some]
    cases follows <;> rfl
  assignable handle frame name value framed := by
    obtain ⟨scope, held, follows⟩ := sound.held framed
    rw [get?_of_held held, take?, held, Option.bind_some, Option.map_eq_none_iff]
    exact (follows.reads name).agree (follows.writes name value)
  assign handle frame name value after framed taken := by
    obtain ⟨scope, held, follows⟩ := sound.held framed
    rw [take?, held, Option.bind_some] at taken
    obtain ⟨machine, assigned, rfl⟩ := Option.map_eq_some_iff.mp taken
    have writes := follows.writes name value
    rw [assigned] at writes
    obtain ⟨binder, nearest, rfl⟩ := writes.nearest
    exact (rebound_bindIn sound nearest.lt_size name value).congr fun _ =>
      (sameBinder_iff nearest).symm
  refused handle scope name value limits values held missing := by
    rw [get?_of_held held] at missing
    exact HostAction.assign_refused limits values value missing

/-- Whatever has been done to scopes, the laws of scopes hold. -/
theorem run_lawful (silent : Bool) (steps : List ScopeStep) :
    ((empty silent).run steps).Lawful :=
  lawful_of_sound ((Sound.empty silent).run steps)

/-- A name in a scope, shadowed in a scope within it that has two handles, and a third scope
beside that one. -/
def shadowing : List ScopeStep :=
  [.root, .define 0 "x" (.boolean true), .child 0, .define 1 "x" (.boolean false), .clone 1,
    .child 0]

/-- An assignment through one handle of the inner scope is seen through the other, but neither
in the outer scope nor beside. -/
theorem run_lawful_shadowing :
    ∃ after, ((empty true).run shadowing).take? (.assign 2 "x" .null) = some after ∧
      after.get? 1 "x" = some .null ∧ after.get? 0 "x" = some (.boolean true) ∧
      after.get? 3 "x" = some (.boolean true) := by
  have lawful := run_lawful true shadowing
  generalize built : (empty true).run shadowing = store at lawful ⊢
  have inner : store.binding? 1 "x" = some (.boolean false) := built ▸ rfl
  have outer : store.binding? 0 "x" = some (.boolean true) := built ▸ rfl
  have beside : store.links[2]? = some (some 0) := built ▸ rfl
  have nearest : store.Nearest "x" 1 1 := ⟨.here, by simp [inner]⟩
  have outside : ¬ store.Reaches "x" 0 1 := by
    intro reaches
    cases reaches with
    | outward unbound => cases outer.symm.trans unbound
  have apart : ¬ store.Reaches "x" 2 1 := by
    intro reaches
    cases reaches with
    | outward _ link later =>
      obtain rfl := outer_unique beside link
      exact outside later
  rw [← sameBinder_iff nearest] at outside apart
  have framed : store.frame? 2 = some 1 := built ▸ rfl
  cases taken : store.take? (.assign 2 "x" .null) with
  | none =>
    have missing := (lawful.assignable 2 1 "x" .null framed).mp taken
    cases (built ▸ rfl : store.get? 2 "x" = some (.boolean false)).symm.trans missing
  | some after =>
    have rebound := lawful.assign 2 1 "x" .null after framed taken
    refine ⟨after, rfl, ?_, ?_, ?_⟩
    · rw [rebound.gets 1 1 "x" (built ▸ rfl), if_pos ⟨rfl, 1, nearest, nearest⟩]
    · rw [rebound.gets 0 0 "x" (built ▸ rfl), if_neg fun seen => outside seen.2]
      exact built ▸ rfl
    · rw [rebound.gets 3 2 "x" (built ▸ rfl), if_neg fun seen => apart seen.2]
      exact built ▸ rfl

end ScopeStore

end PixelScript
