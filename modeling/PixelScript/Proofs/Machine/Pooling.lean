import Mathlib
import PixelScript.Machine.Basic

/-! Machines whose cells are kept on another machine. A link says where each cell is kept.
Handles differ between the two machines, and the other one holds more cells besides, which
stay as they are. Whatever else can be seen of a value is the same. -/
namespace PixelScript

/-- Which cells of one machine stand for which of another. -/
structure Link where
  frames : FrameId → FrameId → Prop
  closures : ClosureId → ClosureId → Prop
  iterators : IteratorId → IteratorId → Prop
  buffers : BufferId → BufferId → Prop

namespace Link

/-- A later link keeps all pairs. -/
structure Grows (link later : Link) : Prop where
  frames : ∀ id id', link.frames id id' → later.frames id id'
  closures : ∀ id id', link.closures id id' → later.closures id id'
  iterators : ∀ id id', link.iterators id id' → later.iterators id id'
  buffers : ∀ id id', link.buffers id id' → later.buffers id id'

theorem Grows.refl (link : Link) : link.Grows link where
  frames _ _ := id
  closures _ _ := id
  iterators _ _ := id
  buffers _ _ := id

theorem Grows.trans {link later last : Link} (first : link.Grows later)
    (second : later.Grows last) : link.Grows last where
  frames _ _ pair := second.frames _ _ (first.frames _ _ pair)
  closures _ _ pair := second.closures _ _ (first.closures _ _ pair)
  iterators _ _ pair := second.iterators _ _ (first.iterators _ _ pair)
  buffers _ _ pair := second.buffers _ _ (first.buffers _ _ pair)

/-- Pairs of cells, and one more. -/
def also (pairs : Nat → Nat → Prop) (new new' : Nat) : Nat → Nat → Prop :=
  fun id id' => pairs id id' ∨ id = new ∧ id' = new'

end Link

/-- Cells of one sort that are kept in a pool. What stands aside in the pool is of no cell. -/
structure Pooled {α : Type} (same : α → α → Prop) (pairs : Nat → Nat → Prop)
    (aside : Nat → α → Prop) (cells pool : Array α) : Prop where
  stored : ∀ {id id'}, pairs id id' →
    ∃ cell cell', cells[id]? = some cell ∧ pool[id']? = some cell' ∧ same cell cell'
  forth : ∀ {id id' other}, pairs id id' → pairs id other → id' = other
  back : ∀ {id id' other}, pairs id id' → pairs other id' → id = other
  kept : ∀ {id cell}, aside id cell → pool[id]? = some cell ∧ ∀ other, ¬ pairs other id

namespace Pooled

variable {α : Type} {same same' : α → α → Prop} {pairs : Nat → Nat → Prop}
  {aside : Nat → α → Prop} {cells pool cells' pool' : Array α} {id id' : Nat}

theorem weaken (pooled : Pooled same pairs aside cells pool)
    (weaker : ∀ cell cell', same cell cell' → same' cell cell') :
    Pooled same' pairs aside cells pool where
  stored pair := by
    obtain ⟨cell, cell', own, other, alike⟩ := pooled.stored pair
    exact ⟨cell, cell', own, other, weaker cell cell' alike⟩
  forth := pooled.forth
  back := pooled.back
  kept := pooled.kept

theorem lt_size (pooled : Pooled same pairs aside cells pool) (pair : pairs id id') :
    id < cells.size ∧ id' < pool.size := by
  obtain ⟨cell, cell', own, other, _⟩ := pooled.stored pair
  exact ⟨(Array.getElem?_eq_some_iff.mp own).1, (Array.getElem?_eq_some_iff.mp other).1⟩

theorem beq (pooled : Pooled same pairs aside cells pool) {other other' : Nat}
    (pair : pairs id id') (pair' : pairs other other') : (id' == other') = (id == other) := by
  rw [Bool.eq_iff_iff, beq_iff_eq, beq_iff_eq]
  constructor
  · rintro rfl
    exact pooled.back pair pair'
  · rintro rfl
    exact pooled.forth pair pair'

/-- A new cell takes the next place in the pool, wherever that is. -/
theorem push (pooled : Pooled same pairs aside cells pool) {cell cell' : α}
    (alike : same cell cell') :
    Pooled same (Link.also pairs cells.size pool.size) aside (cells.push cell)
      (pool.push cell') where
  stored := by
    rintro id id' (pair | ⟨rfl, rfl⟩)
    · have old := pooled.lt_size pair
      rw [Array.getElem?_push, Array.getElem?_push, if_neg (by omega), if_neg (by omega)]
      exact pooled.stored pair
    · exact ⟨cell, cell', Array.getElem?_push_size, Array.getElem?_push_size, alike⟩
  forth := by
    rintro id id' other (pair | ⟨rfl, rfl⟩) (pair' | ⟨new, rfl⟩)
    · exact pooled.forth pair pair'
    · exact absurd (pooled.lt_size pair).1 (by omega)
    · exact absurd (pooled.lt_size pair').1 (Nat.lt_irrefl _)
    · rfl
  back := by
    rintro id id' other (pair | ⟨rfl, rfl⟩) (pair' | ⟨rfl, new⟩)
    · exact pooled.back pair pair'
    · exact absurd (pooled.lt_size pair).2 (by omega)
    · exact absurd (pooled.lt_size pair').2 (Nat.lt_irrefl _)
    · rfl
  kept := by
    intro id cell stands
    obtain ⟨found, foreign⟩ := pooled.kept stands
    have old : id < pool.size := (Array.getElem?_eq_some_iff.mp found).1
    rw [Array.getElem?_push, if_neg (by omega)]
    refine ⟨found, ?_⟩
    rintro other (pair | ⟨_, rfl⟩)
    · exact foreign other pair
    · exact Nat.lt_irrefl _ old

/-- A change to one cell and the one that it is kept in. -/
theorem change (pooled : Pooled same pairs aside cells pool) (pair : pairs id id')
    (elsewhere : ∀ other, other ≠ id → cells'[other]? = cells[other]?)
    (elsewhere' : ∀ other, other ≠ id' → pool'[other]? = pool[other]?)
    (here : ∃ cell cell', cells'[id]? = some cell ∧ pool'[id']? = some cell' ∧ same cell cell') :
    Pooled same pairs aside cells' pool' where
  stored := by
    intro other other' pair'
    by_cases hit : other = id
    · subst hit
      obtain rfl := pooled.forth pair pair'
      exact here
    · have miss : other' ≠ id' := by
        rintro rfl
        exact hit (pooled.back pair' pair)
      rw [elsewhere other hit, elsewhere' other' miss]
      exact pooled.stored pair'
  forth := pooled.forth
  back := pooled.back
  kept := by
    intro other cell stands
    obtain ⟨found, foreign⟩ := pooled.kept stands
    have miss : other ≠ id' := by
      rintro rfl
      exact foreign id pair
    exact ⟨(elsewhere' other miss).trans found, foreign⟩

theorem modify (pooled : Pooled same pairs aside cells pool) (pair : pairs id id')
    {change change' : α → α}
    (alike : ∀ cell cell', same cell cell' → same (change cell) (change' cell')) :
    Pooled same pairs aside (cells.modify id change) (pool.modify id' change') := by
  obtain ⟨cell, cell', own, other, before⟩ := pooled.stored pair
  refine pooled.change pair (fun other miss => ?_) (fun other miss => ?_)
    ⟨change cell, change' cell', ?_, ?_, alike cell cell' before⟩
  · rw [Array.getElem?_modify, if_neg (Ne.symm miss)]
  · rw [Array.getElem?_modify, if_neg (Ne.symm miss)]
  · rw [Array.getElem?_modify, if_pos rfl, own, Option.map_some]
  · rw [Array.getElem?_modify, if_pos rfl, other, Option.map_some]

theorem set (pooled : Pooled same pairs aside cells pool) (pair : pairs id id') {cell cell' : α}
    (alike : same cell cell') :
    Pooled same pairs aside (cells.setIfInBounds id cell) (pool.setIfInBounds id' cell') := by
  have bounds := pooled.lt_size pair
  refine pooled.change pair (fun other miss => ?_) (fun other miss => ?_)
    ⟨cell, cell', ?_, ?_, alike⟩
  · rw [Array.getElem?_setIfInBounds, if_neg (Ne.symm miss)]
  · rw [Array.getElem?_setIfInBounds, if_neg (Ne.symm miss)]
  · rw [Array.getElem?_setIfInBounds, if_pos rfl, if_pos bounds.1]
  · rw [Array.getElem?_setIfInBounds, if_pos rfl, if_pos bounds.2]

/-- Cells of another machine that is kept in the same pool, at other places. When its cells
change and it makes new ones, these here stay, and stay different ones. -/
theorem beside (pooled : Pooled same pairs aside cells pool) {others laters : Nat → Nat → Prop}
    {cells' : Array α}
    (acted : Pooled same' laters (fun id cell => pool[id]? = some cell ∧ ∀ own, ¬ others own id)
      cells' pool')
    (apart : ∀ {id id' cell}, pairs id cell → ¬ others id' cell) :
    Pooled same pairs (fun _ _ => False) cells pool' ∧
      ∀ {id id' cell}, pairs id cell → ¬ laters id' cell := by
  have left : ∀ {id id' cell}, pairs id id' → pool[id']? = some cell →
      pool'[id']? = some cell ∧ ∀ own, ¬ laters own id' :=
    fun pair found => acted.kept ⟨found, fun _ => apart pair⟩
  refine ⟨⟨fun pair => ?_, pooled.forth, pooled.back, False.elim⟩, fun pair => ?_⟩
  · obtain ⟨cell, cell', own, other, alike⟩ := pooled.stored pair
    exact ⟨cell, cell', own, (left pair other).1, alike⟩
  · obtain ⟨_, _, _, other, _⟩ := pooled.stored pair
    exact (left pair other).2 _

end Pooled

/-- Whether a value refers to a cell. -/
def Value.isHandle : Value → Bool
  | .closure _ | .iterator _ | .pixelBuffer _ => true
  | _ => false

/-- A handle equals no other value. -/
theorem Value.equal_of_isHandle_ne {value other : Value}
    (differ : value.isHandle ≠ other.isHandle) : value.equal other = false := by
  cases value <;> cases other <;> first | rfl | exact absurd rfl differ

/-- Values that stand for each other: handles whose cells do, and other values themselves. -/
inductive Value.Linked (link : Link) : Value → Value → Prop
  | itself (plain : value.isHandle = false) : Value.Linked link value value
  | closure {id id' : ClosureId} (pair : link.closures id id') :
      Value.Linked link (.closure id) (.closure id')
  | iterator {id id' : IteratorId} (pair : link.iterators id id') :
      Value.Linked link (.iterator id) (.iterator id')
  | pixelBuffer {id id' : BufferId} (pair : link.buffers id id') :
      Value.Linked link (.pixelBuffer id) (.pixelBuffer id')

variable {link later : Link}

namespace Value.Linked

variable {value value' : Value}

theorem grown (grows : link.Grows later) (linked : Value.Linked link value value') :
    Value.Linked later value value' := by
  cases linked with
  | itself plain => exact .itself plain
  | closure pair => exact .closure (grows.closures _ _ pair)
  | iterator pair => exact .iterator (grows.iterators _ _ pair)
  | pixelBuffer pair => exact .pixelBuffer (grows.buffers _ _ pair)

theorem kind (linked : Value.Linked link value value') : value'.kind = value.kind := by
  cases linked <;> rfl

theorem isTruthy (linked : Value.Linked link value value') : value'.isTruthy = value.isTruthy := by
  cases linked <;> rfl

theorem isHandle (linked : Value.Linked link value value') : value'.isHandle = value.isHandle := by
  cases linked <;> rfl

theorem eq_of_plain (linked : Value.Linked link value value') (plain : value.isHandle = false) :
    value' = value := by
  cases linked with
  | itself => rfl
  | closure | iterator | pixelBuffer => cases plain

/-- What equals a value that is no handle is no handle either. -/
theorem equal_plain (linked : Value.Linked link value value') {other : Value}
    (plain : other.isHandle = false) : other.equal value' = other.equal value := by
  by_cases handle : value.isHandle = true
  · have differ : other.isHandle ≠ value.isHandle := by rw [plain, handle]; decide
    rw [Value.equal_of_isHandle_ne differ, Value.equal_of_isHandle_ne (linked.isHandle ▸ differ)]
  · rw [linked.eq_of_plain (Bool.not_eq_true _ ▸ handle)]

end Value.Linked

/-- Lists of values that stand for each other. -/
def Values.Linked (link : Link) (values values' : List Value) : Prop :=
  List.Forall₂ (Value.Linked link) values values'

theorem Values.Linked.grown {values values' : List Value} (grows : link.Grows later)
    (linked : Values.Linked link values values') : Values.Linked later values values' :=
  linked.imp fun _ _ => Value.Linked.grown grows

/-- Lists that are related at each place. -/
theorem getElem?_of_forall₂ {α β : Type} {related : α → β → Prop} {items : List α}
    {items' : List β} (all : List.Forall₂ related items items') (index : Nat) :
    Option.Rel related items[index]? items'[index]? := by
  induction all generalizing index with
  | nil => exact .none
  | cons first _ ih =>
    cases index with
    | zero => exact .some first
    | succ index => exact ih index

theorem Values.Linked.head? {values values' : List Value}
    (linked : Values.Linked link values values') :
    Option.Rel (Value.Linked link) values.head? values'.head? := by
  cases linked with
  | nil => exact .none
  | cons first => exact .some first

/-- A missing value counts as null. -/
theorem Value.Linked.getD {found found' : Option Value}
    (linked : Option.Rel (Value.Linked link) found found') :
    Value.Linked link (found.getD .null) (found'.getD .null) := by
  cases linked with
  | some linked => exact linked
  | none => exact .itself rfl

/-- Tables whose entries go together one by one. -/
def Table.Related {κ : Type} (keys : κ → κ → Prop) (values : Value → Value → Prop)
    (table table' : Table κ Value) : Prop :=
  List.Forall₂ (fun entry entry' => keys entry.1 entry'.1 ∧ values entry.2 entry'.2) table table'

namespace Table.Related

variable {κ : Type} {keys : κ → κ → Prop} {values : Value → Value → Prop}
  {table table' : Table κ Value}

theorem weaken (related : Table.Related keys values table table') {values' : Value → Value → Prop}
    (weaker : ∀ {value value'}, values value value' → values' value value') :
    Table.Related keys values' table table' :=
  related.imp fun _ _ entry => ⟨entry.1, weaker entry.2⟩

theorem eq_of_eq (related : Table.Related keys values table table')
    (sameKeys : ∀ {key key'}, keys key key' → key' = key)
    (sameValues : ∀ {value value'}, values value value' → value' = value) : table' = table := by
  have same : List.Forall₂ Eq table table' := related.imp fun _ _ entry =>
    Prod.ext (sameKeys entry.1).symm (sameValues entry.2).symm
  rw [List.forall₂_eq_eq_eq] at same
  exact same.symm

variable [DecidableEq κ] {key key' : κ}
  (unique : ∀ {x x' y y'}, keys x x' → keys y y' → (x = y ↔ x' = y'))
include unique

theorem get? (related : Table.Related keys values table table') (name : keys key key') :
    Option.Rel values (table.get? key) (table'.get? key') := by
  induction related with
  | nil => exact .none
  | @cons entry entry' _ _ first more ih =>
    obtain ⟨own, value⟩ := entry
    obtain ⟨other, value'⟩ := entry'
    simp only [Table.get?, unique first.1 name]
    split
    · exact .some first.2
    · exact ih

theorem insert (related : Table.Related keys values table table') (name : keys key key')
    {value value' : Value} (same : values value value') :
    Table.Related keys values (table.insert key value) (table'.insert key' value') := by
  induction related with
  | nil => exact .cons ⟨name, same⟩ .nil
  | @cons entry entry' _ _ first more ih =>
    obtain ⟨own, old⟩ := entry
    obtain ⟨other, old'⟩ := entry'
    simp only [Table.insert, unique first.1 name]
    split
    · exact .cons ⟨name, same⟩ more
    · exact .cons first ih

end Table.Related

/-- Tables with the same keys in the same order, for values that stand for each other. -/
abbrev Table.Linked {κ : Type} (link : Link) : Table κ Value → Table κ Value → Prop :=
  Table.Related (fun key key' => key' = key) (Value.Linked link)

namespace Table.Linked

variable {κ : Type} {table table' : Table κ Value}

theorem grown (grows : link.Grows later) (linked : Table.Linked link table table') :
    Table.Linked later table table' :=
  linked.weaken fun same => same.grown grows

theorem names (linked : Table.Linked link table table') : table'.names = table.names := by
  induction linked with
  | nil => rfl
  | cons first _ ih => simp only [Table.names, List.map_cons, first.1] at ih ⊢; rw [ih]

theorem refl (plain : ∀ entry ∈ table, entry.2.isHandle = false) : Table.Linked link table table :=
  List.forall₂_same.mpr fun entry among => ⟨rfl, .itself (plain entry among)⟩

variable [DecidableEq κ]

theorem get? (linked : Table.Linked link table table') (key : κ) :
    Option.Rel (Value.Linked link) (table.get? key) (table'.get? key) :=
  Table.Related.get? (fun first second => by rw [first, second]) linked rfl

theorem insert (linked : Table.Linked link table table') (key : κ) {value value' : Value}
    (same : Value.Linked link value value') :
    Table.Linked link (table.insert key value) (table'.insert key value') :=
  Table.Related.insert (fun first second => by rw [first, second]) linked rfl same

end Table.Linked

/-- Scopes whose frames stand for each other. -/
def Scope.Linked (link : Link) (scope scope' : Scope) : Prop :=
  List.Forall₂ link.frames scope scope'

theorem Scope.Linked.grown {scope scope' : Scope} (grows : link.Grows later)
    (linked : Scope.Linked link scope scope') : Scope.Linked later scope scope' :=
  linked.imp grows.frames

/-- The same function, made in scopes that stand for each other. -/
structure Closure.Linked (link : Link) (closure closure' : Closure) : Prop where
  params : closure'.params = closure.params
  body : closure'.body = closure.body
  name : closure'.name = closure.name
  scope : Scope.Linked link closure.scope closure'.scope

theorem Closure.Linked.grown {closure closure' : Closure} (grows : link.Grows later)
    (linked : Closure.Linked link closure closure') : Closure.Linked later closure closure' :=
  { linked with scope := linked.scope.grown grows }

/-- Cells of a machine that are of no concern, with what they hold. -/
structure Aside where
  frames : FrameId → Bindings → Prop
  closures : ClosureId → Closure → Prop
  iterators : IteratorId → Range → Prop
  buffers : BufferId → PixelBuffer → Prop

/-- A machine whose cells are kept on another, which code cannot tell from it. -/
structure Machine.Linked (link : Link) (aside : Aside) (machine machine' : Machine) : Prop where
  frames : Pooled (Table.Linked link) link.frames aside.frames machine.frames machine'.frames
  closures : Pooled (Closure.Linked link) link.closures aside.closures
    machine.closures machine'.closures
  iterators : Pooled Eq link.iterators aside.iterators machine.iterators machine'.iterators
  buffers : Pooled Eq link.buffers aside.buffers machine.buffers machine'.buffers
  methods : Table.Linked link machine.methods machine'.methods
  console : machine'.console = machine.console
  callDepth : machine'.callDepth = machine.callDepth

namespace Machine.Linked

variable {aside : Aside} {machine machine' : Machine} {scope scope' : Scope} {value value' : Value}
  {id id' : Nat}

/-- What cells hold is still linked when there are more links. -/
theorem regrown (linked : Machine.Linked link aside machine machine') (grows : link.Grows later) :
    Pooled (Table.Linked later) link.frames aside.frames machine.frames machine'.frames ∧
      Pooled (Closure.Linked later) link.closures aside.closures machine.closures
        machine'.closures ∧
      Table.Linked later machine.methods machine'.methods :=
  ⟨linked.frames.weaken fun _ _ => Table.Linked.grown grows,
    linked.closures.weaken fun _ _ => Closure.Linked.grown grows, linked.methods.grown grows⟩

theorem openScope (linked : Machine.Linked link aside machine machine')
    (scopes : Scope.Linked link scope scope') {bindings bindings' : Bindings}
    (same : Table.Linked link bindings bindings') :
    ∃ later, link.Grows later ∧
      Machine.Linked later aside (machine.openScope scope bindings).2
        (machine'.openScope scope' bindings').2 ∧
      Scope.Linked later (machine.openScope scope bindings).1
        (machine'.openScope scope' bindings').1 := by
  let later : Link :=
    { link with frames := Link.also link.frames machine.frames.size machine'.frames.size }
  have grows : link.Grows later := { Link.Grows.refl link with frames := fun _ _ => .inl }
  obtain ⟨frames, closures, methods⟩ := linked.regrown grows
  exact ⟨later, grows,
    { linked with frames := frames.push (same.grown grows), closures, methods },
    .cons (.inr ⟨rfl, rfl⟩) (scopes.grown grows)⟩

theorem addClosure (linked : Machine.Linked link aside machine machine')
    {closure closure' : Closure} (same : Closure.Linked link closure closure') :
    ∃ later, link.Grows later ∧
      Machine.Linked later aside (machine.addClosure closure).2 (machine'.addClosure closure').2 ∧
      Value.Linked later (machine.addClosure closure).1 (machine'.addClosure closure').1 := by
  let later : Link :=
    { link with closures := Link.also link.closures machine.closures.size machine'.closures.size }
  have grows : link.Grows later := { Link.Grows.refl link with closures := fun _ _ => .inl }
  obtain ⟨frames, closures, methods⟩ := linked.regrown grows
  exact ⟨later, grows,
    { linked with frames, closures := closures.push (same.grown grows), methods },
    .closure (.inr ⟨rfl, rfl⟩)⟩

theorem addRange (linked : Machine.Linked link aside machine machine') (range : Range) :
    ∃ later, link.Grows later ∧
      Machine.Linked later aside (machine.addRange range).2 (machine'.addRange range).2 ∧
      Value.Linked later (machine.addRange range).1 (machine'.addRange range).1 := by
  let later : Link :=
    { link with
      iterators := Link.also link.iterators machine.iterators.size machine'.iterators.size }
  have grows : link.Grows later := { Link.Grows.refl link with iterators := fun _ _ => .inl }
  obtain ⟨frames, closures, methods⟩ := linked.regrown grows
  exact ⟨later, grows,
    { linked with frames, closures, iterators := linked.iterators.push rfl, methods },
    .iterator (.inr ⟨rfl, rfl⟩)⟩

theorem addBuffer (linked : Machine.Linked link aside machine machine') (buffer : PixelBuffer) :
    ∃ later, link.Grows later ∧
      Machine.Linked later aside (machine.addBuffer buffer).2 (machine'.addBuffer buffer).2 ∧
      Value.Linked later (machine.addBuffer buffer).1 (machine'.addBuffer buffer).1 := by
  let later : Link :=
    { link with buffers := Link.also link.buffers machine.buffers.size machine'.buffers.size }
  have grows : link.Grows later := { Link.Grows.refl link with buffers := fun _ _ => .inl }
  obtain ⟨frames, closures, methods⟩ := linked.regrown grows
  exact ⟨later, grows,
    { linked with frames, closures, buffers := linked.buffers.push rfl, methods },
    .pixelBuffer (.inr ⟨rfl, rfl⟩)⟩

theorem bindings (linked : Machine.Linked link aside machine machine') (pair : link.frames id id') :
    Table.Linked link (machine.bindings id) (machine'.bindings id') := by
  obtain ⟨table, table', own, other, same⟩ := linked.frames.stored pair
  simpa only [Machine.bindings, own, other, Option.getD_some] using same

theorem lookup? (linked : Machine.Linked link aside machine machine')
    (scopes : Scope.Linked link scope scope') (name : String) :
    Option.Rel (Value.Linked link) (machine.lookup? scope name) (machine'.lookup? scope' name) := by
  induction scopes with
  | nil => exact .none
  | @cons frame frame' outer outer' pair _ ih =>
    have found := (linked.bindings pair).get? name
    simp only [Machine.lookup?]
    generalize (machine.bindings frame).get? name = own,
      (machine'.bindings frame').get? name = other at found ⊢
    cases found with
    | some same => exact .some same
    | none => exact ih

theorem bindIn (linked : Machine.Linked link aside machine machine') (pair : link.frames id id')
    (name : String) (same : Value.Linked link value value') :
    Machine.Linked link aside (machine.bindIn id name value) (machine'.bindIn id' name value') :=
  { linked with
    frames := linked.frames.modify pair fun _ _ before => before.insert name same }

theorem assign? (linked : Machine.Linked link aside machine machine')
    (scopes : Scope.Linked link scope scope') (name : String)
    (same : Value.Linked link value value') :
    Option.Rel (Machine.Linked link aside) (machine.assign? scope name value)
      (machine'.assign? scope' name value') := by
  induction scopes with
  | nil => exact .none
  | @cons frame frame' outer outer' pair _ ih =>
    have found := (linked.bindings pair).get? name
    simp only [Machine.assign?]
    generalize (machine.bindings frame).get? name = own,
      (machine'.bindings frame').get? name = other at found ⊢
    cases found with
    | some => exact .some (linked.bindIn pair name same)
    | none => exact ih

theorem define (linked : Machine.Linked link aside machine machine')
    (scopes : Scope.Linked link scope scope') (name : String)
    (same : Value.Linked link value value') :
    Machine.Linked link aside (machine.define scope name value)
      (machine'.define scope' name value') := by
  cases scopes with
  | nil => exact linked
  | cons pair => exact linked.bindIn pair name same

theorem advanceIterator (linked : Machine.Linked link aside machine machine')
    (pair : link.iterators id id') :
    Machine.Linked link aside (machine.advanceIterator id).2 (machine'.advanceIterator id').2 ∧
      (machine'.advanceIterator id').1 = (machine.advanceIterator id).1 := by
  obtain ⟨range, range', own, other, rfl⟩ := linked.iterators.stored pair
  simp only [Machine.advanceIterator, own, other]
  exact ⟨{ linked with iterators := linked.iterators.set pair rfl }, trivial⟩

theorem updateBuffer (linked : Machine.Linked link aside machine machine')
    (pair : link.buffers id id') (change : PixelBuffer → PixelBuffer) :
    Machine.Linked link aside (machine.updateBuffer id change) (machine'.updateBuffer id' change) :=
  { linked with
    buffers := linked.buffers.modify pair fun _ _ same => congrArg change same }

theorem buffer? (linked : Machine.Linked link aside machine machine') (pair : link.buffers id id') :
    machine'.buffers[id']? = machine.buffers[id]? := by
  obtain ⟨buffer, buffer', own, other, rfl⟩ := linked.buffers.stored pair
  rw [own, other]

theorem method? (linked : Machine.Linked link aside machine machine') (kind : ValueKind)
    (name : String) :
    Option.Rel (Value.Linked link) (machine.method? kind name) (machine'.method? kind name) :=
  linked.methods.get? (kind, name)

theorem registerMethod (linked : Machine.Linked link aside machine machine') (kind : ValueKind)
    (name : String) (same : Value.Linked link value value') :
    Machine.Linked link aside (machine.registerMethod kind name value)
      (machine'.registerMethod kind name value') :=
  { linked with methods := linked.methods.insert (kind, name) same }

theorem printLine (linked : Machine.Linked link aside machine machine') (line : String) :
    Machine.Linked link aside (machine.printLine line) (machine'.printLine line) :=
  { linked with console := by simp only [Machine.printLine, linked.console] }

theorem display (linked : Machine.Linked link aside machine machine')
    (same : Value.Linked link value value') : machine'.display value' = machine.display value := by
  cases same with
  | itself plain =>
    cases value with
    | closure | iterator | pixelBuffer => cases plain
    | number | string | boolean | null | native => rfl
  | closure pair =>
    obtain ⟨closure, closure', own, other, same⟩ := linked.closures.stored pair
    simp only [Machine.display, own, other, Option.bind_some, same.name]
  | iterator => rfl
  | pixelBuffer pair => simp only [Machine.display, linked.buffer? pair]

theorem listing (linked : Machine.Linked link aside machine machine')
    (same : Value.Linked link value value') : machine'.listing value' = machine.listing value := by
  have shown := linked.display same
  cases same with
  | itself plain =>
    cases value with
    | closure | iterator | pixelBuffer => cases plain
    | number | string | boolean | null | native => rfl
  | closure | iterator | pixelBuffer => exact shown

/-- Handles are equal exactly if those that they stand for are. -/
theorem equal (linked : Machine.Linked link aside machine machine') {other other' : Value}
    (same : Value.Linked link value value') (sameOther : Value.Linked link other other') :
    value'.equal other' = value.equal other := by
  by_cases handles : value.isHandle = other.isHandle
  · cases same with
    | itself plain => rw [sameOther.eq_of_plain (handles ▸ plain)]
    | closure pair =>
      cases sameOther with
      | itself plain => rw [plain] at handles; cases handles
      | closure pair' => exact linked.closures.beq pair pair'
      | iterator | pixelBuffer => rfl
    | iterator pair =>
      cases sameOther with
      | itself plain => rw [plain] at handles; cases handles
      | iterator pair' => exact linked.iterators.beq pair pair'
      | closure | pixelBuffer => rfl
    | pixelBuffer pair =>
      cases sameOther with
      | itself plain => rw [plain] at handles; cases handles
      | pixelBuffer pair' => exact linked.buffers.beq pair pair'
      | closure | iterator => rfl
  · rw [Value.equal_of_isHandle_ne handles, Value.equal_of_isHandle_ne]
    rwa [same.isHandle, sameOther.isHandle]

end Machine.Linked

end PixelScript
