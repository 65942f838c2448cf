import PixelScript.Machine.Fresh
import PixelScript.Proofs.Evaluation.Region
import PixelScript.Proofs.Syntax.Reparse

/-! What evaluation does to the frames that are there before. Expressions bind nothing in
them, a declaration binds its own name in the innermost frame of its scope, and other
values change only where code that can be reached assigns to the name. -/
namespace PixelScript

namespace Node

/-- Whether a node binds a name in the scope that it runs in. -/
def Declares (name : String) (node : Node) : Prop :=
  ∃ value span, node = stmt (.declare name value span)

/-- The node and everything below it. -/
def parts : Node → List Node
  | stmt statement => stmt statement :: statement.inner
  | expr value => expr value :: value.inner

def eval (limits : Limits) (fuel : Nat) (scope : Scope) : Node → Eval Value
  | stmt statement => Evaluation.evalStmt limits fuel scope statement
  | expr value => Evaluation.evalExpr limits fuel scope value

end Node

/-- The places that a node in a scope may bind names in. -/
def Node.declared (scope : Scope) (node : Node) (frame : FrameId) (name : String) : Prop :=
  scope.head? = some frame ∧ node.Declares name

def Node.part : Node → Part
  | stmt statement => .stmt statement
  | expr value => .expr value

theorem Node.nodes_part (node : Node) : node.part.nodes = node.parts := by
  cases node <;> rfl

theorem Node.isShaped_part {program : Program} {node : Node}
    (parsed : Program.parse source = .ok program) (inside : node ∈ program.nodes) :
    node.part.isShaped = true := by
  have shaped := Stmt.areShaped_nodes _ (Program.isShaped_of_parse parsed) node inside
  cases node <;> exact shaped

/-- A node that may run in a region stays there, and binds nothing but what it declares. -/
theorem Region.node_ends {region : Region} {scope : Scope} {node : Node} {machine : Machine}
    (contains : region.toTerritory.Contains scope) (allows : region.Allows node.part)
    (closed : region.Closed machine) (limits : Limits) (fuel : Nat) :
    (region.staying (node.declared scope) machine limits).Ends () .settled
      (node.eval limits fuel scope machine) := by
  have lawful := region.staying_lawful (node.declared scope) machine limits
  cases node with
  | expr value =>
    exact lawful.run_ends (.expression contains allows) trivial ⟨closed, .refl machine⟩
  | stmt statement =>
    refine lawful.run_ends (.statement contains allows ?_) trivial ⟨closed, .refl machine⟩
    rintro name ⟨value, span, rfl⟩ frame innermost _
    exact ⟨innermost, value, span, rfl⟩

/-- Machines that parsed programs lead to from a fresh one, by running programs or parts of
them in any scopes. In between, anything but the closures may change, so that the machines
in the middle of a run are among them. -/
inductive Machine.Reachable : Machine → Prop
  | fresh (silent : Bool) : Reachable (.fresh silent)
  | ran {machine machine' : Machine} {program : Program} (limits : Limits) (fuel : Nat)
    (scope : Scope) (reachable : Reachable machine) (parsed : Program.parse source = .ok program)
    (left : (program.eval limits fuel scope machine).machine? = some machine') :
    Reachable machine'
  | evaluated {machine machine' : Machine} {program : Program} {node : Node} (limits : Limits)
    (fuel : Nat) (scope : Scope) (reachable : Reachable machine)
    (parsed : Program.parse source = .ok program) (inside : node ∈ program.nodes)
    (left : (node.eval limits fuel scope machine).machine? = some machine') :
    Reachable machine'
  | changed {machine machine' : Machine} (reachable : Reachable machine)
    (closures : machine'.closures = machine.closures) : Reachable machine'

/-- The values that code in a scope can get hold of: what is bound there, the methods, and
what is bound in the scopes of closures that it can get hold of. -/
inductive Machine.Holds (machine : Machine) (scope : Scope) : Value → Prop
  | bound (inScope : frame ∈ scope)
    (found : (machine.bindings frame).get? name = some value) : Holds machine scope value
  | method (found : machine.method? kind name = some value) : Holds machine scope value
  | captured {id : ClosureId} {closure : Closure} (holds : Holds machine scope (.closure id))
    (stored : machine.closures[id]? = some closure) (inScope : frame ∈ closure.scope)
    (found : (machine.bindings frame).get? name = some value) : Holds machine scope value

namespace Region

/-- The region of all frames and closures, where any name may get another value. -/
def everything : Region where
  kept _ := False
  frames _ := True
  closures _ := True

theorem everything_has (value : Value) : everything.Has value := by
  cases value <;> trivial

theorem everything_contains (scope : Scope) : everything.toTerritory.Contains scope :=
  fun _ _ => trivial

theorem everything_allows {part : Part} (shaped : part.isShaped = true) : everything.Allows part :=
  ⟨shaped, fun _ _ => id⟩

/-- All that is asked of a machine as a whole is the form of the closures. -/
theorem closed_everything_iff {machine : Machine} : everything.Closed machine ↔
    ∀ (id : ClosureId) (closure : Closure), machine.closures[id]? = some closure →
      (Part.block closure.body).isShaped = true := by
  constructor
  · intro closed id closure stored
    exact (closed.holding.closures id closure stored trivial).1.isShaped
  · intro shaped
    refine ⟨fun _ _ => trivial, fun _ _ => trivial, ?_, ?_, ?_⟩
    · exact fun _ _ value _ _ => everything_has value
    · exact fun _ _ value _ => everything_has value
    · exact fun id closure stored _ =>
        ⟨everything_allows (shaped id closure stored), everything_contains _⟩

end Region

theorem Machine.Reachable.closed {machine : Machine} (reachable : machine.Reachable) :
    Region.everything.Closed machine := by
  induction reachable with
  | fresh => exact Region.closed_everything_iff.mpr nofun
  | @ran _ before _ program limits fuel scope _ parsed left closed =>
    have shaped := Program.isShaped_of_parse parsed
    have ends : (Region.everything.staying (fun _ _ => True) before limits).Ends () .settled
        (program.eval limits fuel scope before) :=
      (Region.staying_lawful ..).eval_ends (Region.everything_contains scope)
        (Region.everything_allows shaped) (fun _ _ _ _ _ _ _ => trivial) trivial
        ⟨closed, .refl before⟩
    obtain ⟨_, _, closed, _⟩ := ends.holds_of_machine? left
    exact closed
  | evaluated limits fuel scope _ parsed inside left closed =>
    have shaped := Node.isShaped_part parsed inside
    have ends := Region.node_ends (Region.everything_contains scope)
      (Region.everything_allows shaped) closed limits fuel
    obtain ⟨_, _, closed, _⟩ := ends.holds_of_machine? left
    exact closed
  | changed _ closures closed =>
    rw [Region.closed_everything_iff] at closed ⊢
    rwa [closures]

/-- What code in a scope can reach, and all that is still to be made. -/
def Machine.reach (machine : Machine) (scope : Scope) : Territory where
  frames frame := machine.frames.size ≤ frame ∨ frame ∈ scope ∨
    ∃ (id : ClosureId) (closure : Closure), machine.Holds scope (.closure id) ∧
      machine.closures[id]? = some closure ∧ frame ∈ closure.scope
  closures id := machine.closures.size ≤ id ∨ machine.Holds scope (.closure id)

/-- A frame that is not there yet binds nothing. -/
theorem Machine.bindings_of_size_le {machine : Machine} {frame : FrameId}
    (new : machine.frames.size ≤ frame) : machine.bindings frame = [] := by
  rw [Machine.bindings, Array.getElem?_eq_none new]
  rfl

theorem Machine.contains_reach (machine : Machine) (scope : Scope) :
    (machine.reach scope).Contains scope :=
  fun _ inScope => .inr (.inl inScope)

theorem Machine.closed_reach {machine : Machine} {scope : Scope} {good : Value → Prop}
    {made : Closure → Prop} (values : ∀ value, machine.Holds scope value → good value)
    (closures : ∀ (id : ClosureId) (closure : Closure), machine.Holds scope (.closure id) →
      machine.closures[id]? = some closure → made closure) :
    (machine.reach scope).Closed good made machine where
  newFrames _ := .inl
  newClosures _ := .inl
  holding := by
    constructor
    · intro frame key value found inside
      rcases inside with new | inScope | ⟨id, closure, holds, stored, inScope⟩
      · rw [Machine.bindings_of_size_le new] at found
        contradiction
      · exact values value (.bound inScope found)
      · exact values value (.captured holds stored inScope found)
    · intro kind key value found
      exact values value (.method found)
    · intro id closure stored inside
      rcases inside with new | holds
      · rw [Array.getElem?_eq_none new] at stored
        contradiction
      · refine ⟨closures id closure holds stored, fun frame inScope => ?_⟩
        exact .inr (.inr ⟨id, closure, holds, stored, inScope⟩)

/-- Evaluating a statement or an expression of a parsed program keeps the frames that were
there, the names that they bind, and the values of these names. Only a declaration binds
its own name in the innermost frame of its scope, and a name may get another value only if
an assignment to it is in the node or in the body of a closure that the node can get at. -/
theorem Node.eval_bindings {machine machine' : Machine} {program : Program} {node : Node}
    (reachable : machine.Reachable) (parsed : Program.parse source = .ok program)
    (inside : node ∈ program.nodes) (limits : Limits) (fuel : Nat) (scope : Scope)
    (left : (node.eval limits fuel scope machine).machine? = some machine') :
    machine.frames.size ≤ machine'.frames.size ∧
    ∀ frame name, frame < machine.frames.size →
      ¬ (scope.head? = some frame ∧ node.Declares name) →
      ((machine'.bindings frame).get? name).isSome = ((machine.bindings frame).get? name).isSome ∧
      ((machine'.bindings frame).get? name = (machine.bindings frame).get? name ∨
        Node.Assigned name node.parts ∨
        ∃ (id : ClosureId) (closure : Closure), machine.Holds scope (.closure id) ∧
          machine.closures[id]? = some closure ∧ Node.Assigned name closure.body.nodes) := by
  have shaped := Node.isShaped_part parsed inside
  have closed := reachable.closed
  -- which names are bound does not depend on assignments, so the whole machine is the region
  have everywhere := Region.node_ends (Region.everything_contains scope)
    (Region.everything_allows shaped) closed limits fuel
  obtain ⟨_, _, _, spares⟩ := everywhere.holds_of_machine? left
  refine ⟨spares.size, fun frame name old elsewhere => ⟨spares.bound frame name old elsewhere, ?_⟩⟩
  by_cases inNode : Node.Assigned name node.parts
  · exact .inr (.inl inNode)
  by_cases inClosure : ∃ (id : ClosureId) (closure : Closure), machine.Holds scope (.closure id) ∧
      machine.closures[id]? = some closure ∧ Node.Assigned name closure.body.nodes
  · exact .inr (.inr inClosure)
  -- for the value of one name, the region is what the node can reach, where nothing assigns it
  let region : Region := { machine.reach scope with kept := fun other => other = name }
  have allows : region.Allows node.part := by
    refine ⟨shaped, ?_⟩
    intro key assigned same
    rw [show key = name from same, node.nodes_part] at assigned
    exact inNode assigned
  have within : region.Closed machine := by
    refine Machine.closed_reach (fun value holds => ?_) fun id closure holds stored => ⟨?_, ?_⟩
    · cases value with
      | closure => exact .inr holds
      | _ => trivial
    · exact (closed.holding.closures id closure stored trivial).1.isShaped
    · intro key assigned same
      rw [show key = name from same] at assigned
      exact inClosure ⟨id, closure, holds, stored, assigned⟩
  have stays := region.node_ends (machine.contains_reach scope) allows within limits fuel
  obtain ⟨_, _, _, keeps⟩ := stays.holds_of_machine? left
  exact .inl (keeps.same frame name old elsewhere rfl)

/-- A function may have a local name that is also a global one: a call keeps the global
value. -/
theorem Node.eval_bindings_call :
    let script := "let x = \"a\"\nlet f = () => \x7b let x = \"b\" \x7d"
    let body : Block := .mk [.declare "x" (.string "b" ⟨36, 39⟩) ⟨28, 39⟩] true ⟨26, 41⟩
    let setup : Program := ⟨[.declare "x" (.string "a" ⟨8, 11⟩) ⟨0, 11⟩,
      .declare "f" (.function [] body ⟨20, 41⟩) ⟨12, 41⟩]⟩
    let machine := { Machine.fresh true with
      frames := #[Machine.globalBindings ++ [("x", .string "a"), ("f", .closure 0)]]
      closures := #[⟨[], body, [0], some "f"⟩] }
    let machine' := { machine with frames := machine.frames.push [("x", .string "b")] }
    let call : Expr := .call (.identifier "f" ⟨0, 1⟩) [] ⟨0, 3⟩
    let program : Program := ⟨[.expr call ⟨0, 3⟩]⟩
    Program.parse script = .ok setup ∧ machine.Reachable ∧
      Program.parse "f()" = .ok program ∧ .expr call ∈ program.nodes ∧
      ((Node.expr call).eval {} 20 [0] machine).machine? = some machine' ∧
      (machine'.bindings 0).get? "x" = (machine.bindings 0).get? "x" := by
  intro script body setup machine machine' call program
  have parsed : Program.parse script = .ok setup := by cbv
  have left : (setup.eval {} 20 [0] (.fresh true)).machine? = some machine := rfl
  have reachable : machine.Reachable := .ran {} 20 [0] (.fresh true) parsed left
  have parsedCall : Program.parse "f()" = .ok program := by cbv
  have inside : .expr call ∈ program.nodes := .tail _ (.head _)
  have called : ((Node.expr call).eval {} 20 [0] machine).machine? = some machine' := rfl
  refine ⟨parsed, reachable, parsedCall, inside, called, ?_⟩
  obtain ⟨_, keeps⟩ := Node.eval_bindings reachable parsedCall inside {} 20 [0] called
  have expression : ¬ ([0].head? = some 0 ∧ (Node.expr call).Declares "x") := by
    rintro ⟨_, _, _, same⟩
    cases same
  rcases (keeps 0 "x" Nat.zero_lt_one expression).2 with same | inNode | inClosure
  · exact same
  · obtain ⟨_, _, found⟩ := inNode
    simp [call, Node.parts, Expr.inner, Expr.nodes] at found
  · obtain ⟨id, closure, _, stored, _, _, found⟩ := inClosure
    have only : closure = ⟨[], body, [0], some "f"⟩ := by
      simpa [machine] using Array.mem_of_getElem? stored
    simp [only, body, Block.nodes, Stmt.nodes, Stmt.inner, Expr.inner] at found

end PixelScript
