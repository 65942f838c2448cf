import PixelScript.Proofs.Evaluation.Invariance

/-! Where faults belong. Each cause fits some nodes of a program only, and a fault gets its
place from such a node on its way out. Until then it is loose, and what matters is which
causes it may have. For that, every closure and every method of the machine has to come
from the program or to be a ready-made one, which no name is ever bound to. -/
namespace PixelScript

/-- The nodes of a program that a fault with a cause belongs to. -/
inductive FaultSite (nodes : List Node) : Fault.Cause → Node → Prop
  | read : FaultSite nodes (.undefinedVariable name) (.expr (.identifier name span))
  | assigned : FaultSite nodes (.undefinedVariable name) (.stmt (.assign name value span))
  | iterable (loop : .stmt (.forEach binding value body span) ∈ nodes) :
      FaultSite nodes (.notIterable kind) (.expr value)
  | operator :
      FaultSite nodes (.unknownOperator name kind) (.expr (.operation name left right span))
  | method :
      FaultSite nodes (.unknownOperator name kind) (.expr (.methodCall receiver name args span))
  | callee : FaultSite nodes (.notCallable kind) (.expr (.call value args span))
  | inCall (ofCall : cause.isOfCall = true) : FaultSite nodes cause (.expr (.call value args span))
  | inMethod (ofCall : cause.isOfCall = true) :
      FaultSite nodes cause (.expr (.methodCall receiver name args span))
  | inOperation (ofCall : cause.isOfCall = true) :
      FaultSite nodes cause (.expr (.operation name left right span))

/-- A fault at the place of a node that it belongs to. -/
def Fault.Located (nodes : List Node) (fault : Fault) : Prop :=
  ∃ node ∈ nodes, fault.span = some node.span ∧ FaultSite nodes fault.cause node

/-- What may be left loose for the one that a thing is done for. -/
inductive Duty.Leaves (nodes : List Node) : Duty → Fault.Cause → Prop
  | node {place : Node} (site : FaultSite nodes cause place) : Leaves nodes (.node place) cause
  | send (ofCall : cause.isOfCall = true) : Leaves nodes (.send name) cause
  | method : Leaves nodes (.send name) (.unknownOperator name kind)
  | call (ofCall : cause.isOfCall = true) : Leaves nodes .call cause

/-- A fault that is at its node, or still loose. -/
def Fault.Blamed (nodes : List Node) (duty : Duty) (fault : Fault) : Prop :=
  fault.Located nodes ∨ fault.span = none ∧ duty.Leaves nodes fault.cause

/-- A ready-made method is called only if it was sent for. -/
def Native.Sent (duty : Duty) : Native → Prop
  | builtin method => duty = .send method.name
  | _ => True

/-- Whether a value may be called for a duty, when so many closures have been made. -/
abbrev Value.Owned (count : Nat) (duty : Duty) (value : Value) : Prop :=
  value.Leads (· < count) (Native.Sent duty)

/-- Machines in the course of a run, with so many closures: closures have code of the program,
and a ready-made method stands only under its own name. -/
structure Machine.Traceable (nodes : List Node) (count : Nat) (machine : Machine) : Prop where
  size : machine.closures.size = count
  holding : machine.Holding (fun _ _ value => value.Owned count .call)
    (fun name value => value.kind = .function ∧ value.Owned count (.send name))
    fun _ closure => closure.body.nodes ⊆ nodes

variable {nodes : List Node}

theorem Duty.Leaves.loosen {duty outer : Duty} {cause : Fault.Cause} (within : duty.Within outer)
    (leaves : duty.Leaves nodes cause) : outer.Leaves nodes cause := by
  cases within with
  | refl => exact leaves
  | settled => cases leaves
  | send =>
    cases leaves with
    | call ofCall => exact .send ofCall
  | callee =>
    cases leaves with
    | call ofCall => exact .node (.inCall ofCall)
  | method =>
    cases leaves with
    | send ofCall => exact .node (.inMethod ofCall)
    | method => exact .node .method
  | operator =>
    cases leaves with
    | send ofCall => exact .node (.inOperation ofCall)
    | method => exact .node .operator

theorem Duty.Raises.leaves {duty : Duty} {cause : Fault.Cause} (raises : duty.Raises cause) :
    duty.Leaves nodes cause := by
  cases raises with
  | ofCall ofCall => exact .call ofCall
  | read => exact .node .read
  | assigned => exact .node .assigned
  | callee => exact .node .callee
  | method => exact .method

/-- A node of the program gives a place to what is left to it. -/
theorem Fault.Blamed.orPlacedAt {node : Node} {fault : Fault} (member : node ∈ nodes)
    (blamed : fault.Blamed nodes (.node node)) :
    (fault.orPlacedAt node.span).Blamed nodes .settled := by
  obtain ⟨cause, span⟩ := fault
  obtain ⟨place, among, here, site⟩ | ⟨none, leaves⟩ := blamed
  · obtain rfl : span = some place.span := here
    exact .inl ⟨place, among, rfl, site⟩
  · obtain rfl : span = Option.none := none
    cases leaves with
    | node site => exact .inl ⟨node, member, rfl, site⟩

/-- Every fault is at its node, or is left to one. -/
def blaming (nodes : List Node) (limits : Limits) : Invariant where
  World := Nat
  grown count later := count ≤ later
  limits := limits
  allowed part := part.nodes ⊆ nodes
  closures count id := id < count
  natives := Native.Sent
  holds := Machine.Traceable nodes
  faults := Fault.Blamed nodes

namespace Machine.Traceable

variable {count : Nat} {machine machine' : Machine}

theorem of_same (traceable : machine.Traceable nodes count)
    (frames : machine'.frames = machine.frames) (closures : machine'.closures = machine.closures)
    (methods : machine'.methods = machine.methods) : machine'.Traceable nodes count :=
  ⟨by rw [closures, traceable.size], traceable.holding.of_same frames closures methods⟩

theorem bindIn (traceable : machine.Traceable nodes count) (frame : FrameId) (name : String)
    {value : Value} (owned : value.Owned count .call) :
    (machine.bindIn frame name value).Traceable nodes count :=
  ⟨traceable.size, traceable.holding.bindIn owned⟩

theorem addClosure (traceable : machine.Traceable nodes count) {closure : Closure}
    (within : closure.body.nodes ⊆ nodes) :
    (machine.addClosure closure).2.Traceable nodes (count + 1) where
  size := by simp only [Machine.addClosure, Array.size_push, traceable.size]
  holding := by
    have grown : ∀ {duty} {value : Value}, value.Owned count duty → value.Owned (count + 1) duty :=
      fun owned => owned.weaken (fun _ => Nat.lt_succ_of_lt) fun _ => id
    exact (traceable.holding.addClosure within).weaken grown (fun sent => ⟨sent.1, grown sent.2⟩) id

end Machine.Traceable

theorem blaming_lawful (nodes : List Node) (limits : Limits) : (blaming nodes limits).Lawful where
  inherited within inside := List.Subset.trans (Part.nodes_of_mem_children inside) within
  grown_refl := Nat.le_refl
  grown_trans := Nat.le_trans
  closures_grown grown inside := Nat.lt_of_lt_of_le inside grown
  scopes_grown _ _ := trivial
  binds_grown _ _ := trivial
  own _ _ _ := trivial
  lookup traceable _ _ _ bound := traceable.holding.bindings _ _ _ bound
  define traceable _ owned := traceable.bindIn _ _ owned
  assign traceable _ _ owned := traceable.bindIn _ _ owned
  openScope {count _ scope _} traceable _ owned :=
    ⟨count, Nat.le_refl _, ⟨traceable.size, traceable.holding.openScope scope owned⟩, trivial,
      fun _ => trivial⟩
  addClosure _ traceable _ within := by
    refine ⟨Nat.succ _, Nat.le_succ _, traceable.addClosure within, ?_⟩
    rw [traceable.size]
    exact Nat.lt_succ_self _
  closure traceable _ stored := ⟨trivial, traceable.holding.closures _ _ stored⟩
  missing traceable inside none := by
    rw [← traceable.size] at inside
    exact absurd inside (Nat.not_lt_of_le (Array.getElem?_eq_none_iff.mp none))
  method traceable found := by
    obtain ⟨callable, owned⟩ := traceable.holding.methods _ _ _ found
    exact ⟨owned, fun other => absurd callable other⟩
  registerMethod kind name traceable owned callable := by
    -- a method that code registers is no ready-made one, so it may stand under every name
    have sent : ∀ function, Native.Sent .call function → Native.Sent (.send name) function := by
      intro function sent
      cases function with
      | builtin => contradiction
      | _ => trivial
    refine ⟨traceable.size, traceable.holding.registerMethod kind name ⟨callable, ?_⟩⟩
    exact owned.weaken (fun _ => id) sent
  same _ _ _ traceable := traceable.of_same rfl rfl rfl
  depths := .of_level rfl fun _ traceable => traceable.of_same rfl rfl rfl
  faults :=
    { loosen := fun within => Or.imp_right (And.imp_right (Duty.Leaves.loosen within))
      raise := fun raises => .inr ⟨rfl, raises.leaves⟩
      builtin := fun _ sent => by
        obtain rfl := sent
        exact .inr ⟨rfl, .method⟩
      expression := fun within blamed => blamed.orPlacedAt (within List.mem_cons_self)
      statement := fun within blamed => blamed.orPlacedAt (within List.mem_cons_self)
      iterable := fun _ within => by
        refine .inl ⟨_, within ?_, rfl, .iterable (within List.mem_cons_self)⟩
        simp [Part.nodes, Stmt.inner] }
  fuels := .of_all (fun _ _ _ => trivial) rfl trivial

end PixelScript
