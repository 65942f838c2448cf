import PixelScript.Evaluation.Fault
import PixelScript.Machine.Basic

/-! Computations on a machine. A computation ends with a value or a fault, and in
both cases leaves a machine behind, or it is out of fuel, which is no result of the
script but a bound on how long it was followed. -/
namespace PixelScript

inductive Outcome (α : Type) where
  | value (result : α) (machine : Machine)
  | fault (fault : Fault) (machine : Machine)
  | outOfFuel

def Eval (α : Type) := Machine → Outcome α

namespace Eval

variable {α β : Type}

@[always_inline, inline]
protected def pure (result : α) : Eval α :=
  fun machine => .value result machine

@[always_inline, inline]
protected def bind (first : Eval α) (next : α → Eval β) : Eval β :=
  fun machine => match first machine with
    | .value result machine => next result machine
    | .fault fault machine => .fault fault machine
    | .outOfFuel => .outOfFuel

@[always_inline]
instance : Monad Eval where
  pure := Eval.pure
  bind := Eval.bind

theorem bind_pure (action : Eval α) : (action >>= pure) = action := by
  funext machine
  simp only [Bind.bind, Eval.bind]
  cases action machine <;> rfl

def outOfFuel : Eval α :=
  fun _ => .outOfFuel

/-- Ends with a fault that has no span yet. -/
def fail (cause : Fault.Cause) : Eval α :=
  fun machine => .fault ⟨cause, none⟩ machine

/-- Ends with a fault at a span. -/
def failAt (span : Span) (cause : Fault.Cause) : Eval α :=
  fun machine => .fault ⟨cause, some span⟩ machine

@[always_inline, inline]
def read (view : Machine → α) : Eval α :=
  fun machine => .value (view machine) machine

@[always_inline, inline]
def modify (change : Machine → Machine) : Eval Unit :=
  fun machine => .value () (change machine)

@[always_inline, inline]
def modifyGet (change : Machine → α × Machine) : Eval α :=
  fun machine =>
    let (result, machine) := change machine
    .value result machine

/-- Changes the machine if that is possible, and tells whether it was. -/
@[always_inline, inline]
def attempt (change : Machine → Option Machine) : Eval Bool :=
  fun machine => match change machine with
    | some machine => .value true machine
    | none => .value false machine

/-- Puts a fault of `action` at `span`, unless it is placed already. -/
@[always_inline, inline]
def within (span : Span) (action : Eval α) : Eval α :=
  fun machine => match action machine with
    | .fault fault machine => .fault (fault.orPlacedAt span) machine
    | outcome => outcome

/-- Runs `action` one call deeper, and comes back to the old depth however it ends. -/
@[always_inline, inline]
def deeper (action : Eval α) : Eval α :=
  fun machine => match action { machine with callDepth := machine.callDepth + 1 } with
    | .value result machine => .value result { machine with callDepth := machine.callDepth - 1 }
    | .fault fault machine => .fault fault { machine with callDepth := machine.callDepth - 1 }
    | .outOfFuel => .outOfFuel

end Eval
end PixelScript
