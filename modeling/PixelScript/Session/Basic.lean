import PixelScript.Machine.Fresh
import PixelScript.Session.Host

/-! Sessions: a host with several environments. All runtimes of a session keep their cells
on one machine; each has methods, limits and a console of its own. An environment is a
scope of one runtime. -/
namespace PixelScript

structure Runtime where
  methods : MethodTable
  limits : Limits
  silent : Bool
  /-- The values that the host has got from the runtime, in order. -/
  obtained : List Value

/-- A runtime with the ready-made methods. -/
def Runtime.fresh (silent : Bool) (limits : Limits) : Runtime :=
  ⟨Machine.builtinMethods, limits, silent, []⟩

structure Environment where
  runtime : Nat
  scope : Scope

structure Session where
  /-- Whether runtimes that are added print nothing. -/
  silent : Bool
  machine : Machine
  runtimes : Array Runtime
  environments : Array Environment

namespace Session

def empty (silent : Bool) : Session :=
  ⟨silent, .empty silent, #[], #[]⟩

/-- Adds an environment of a runtime, and gives its number. -/
def addEnvironment (session : Session) (environment : Environment) : Nat × Session :=
  (session.environments.size,
    { session with environments := session.environments.push environment })

/-- Adds a runtime, and an environment at its global scope with the given bindings. -/
def addRuntime (session : Session) (bindings : Bindings) (runtime : Runtime) : Nat × Session :=
  let (scope, machine) := session.machine.openScope [] bindings
  { session with machine, runtimes := session.runtimes.push runtime }.addEnvironment
    ⟨session.runtimes.size, scope⟩

/-- A complete new runtime. -/
def addFresh (session : Session) (limits : Limits) : Nat × Session :=
  session.addRuntime Machine.globalBindings (.fresh session.silent limits)

/-- A new runtime without any bindings or methods, under the usual limits. -/
def addBare (session : Session) : Nat × Session :=
  session.addRuntime [] ⟨[], {}, session.silent, []⟩

/-- A session with one complete runtime, whose global scope is environment zero. -/
def start (silent : Bool) (limits : Limits) : Session :=
  ((empty silent).addFresh limits).2

/-- The machine as code of a runtime finds it: with the methods of the runtime, with
nothing printed and with no call under way. -/
def machineFor (session : Session) (runtime : Runtime) : Machine :=
  { session.machine with
    methods := runtime.methods, console := ⟨runtime.silent, ""⟩, callDepth := 0 }

/-- The machine that an environment lives on, if there is such an environment. -/
def machine? (session : Session) (index : Nat) : Option Machine := do
  let environment ← session.environments[index]?
  let runtime ← session.runtimes[environment.runtime]?
  return session.machineFor runtime

/-- Adds a scope in the runtime of an environment: inside that environment, or empty
and on its own. -/
def addScopeIn (session : Session) (environment : Environment) (inside : Bool) : Nat × Session :=
  let outer := if inside then environment.scope else []
  let (scope, machine) := session.machine.openScope outer []
  { session with machine }.addEnvironment ⟨environment.runtime, scope⟩

def addScope (session : Session) (index : Nat) (inside : Bool) : Option (Nat × Session) :=
  session.environments[index]?.map (session.addScopeIn · inside)

/-- The session after code of a runtime has run: its methods are those on the machine, and
the host has got the value of the answer. -/
def settle (session : Session) (number : Nat) (runtime : Runtime) (answer : HostAnswer)
    (machine : Machine) : Session :=
  let obtained := runtime.obtained ++ answer.value?.toList
  let runtimes := session.runtimes.setIfInBounds number
    { runtime with methods := machine.methods, obtained }
  { session with machine, runtimes }

/-- Carries out an action in an environment; also gives the text that it printed. -/
def performIn (session : Session) (environment : Environment) (action : HostAction) :
    Option ((HostAnswer × String) × Session) :=
  session.runtimes[environment.runtime]?.map fun runtime =>
    let (answer, machine) := action.perform runtime.limits environment.scope runtime.obtained
      (session.machineFor runtime)
    ((answer, machine.console.text), session.settle environment.runtime runtime answer machine)

def perform (session : Session) (index : Nat) (action : HostAction) :
    Option ((HostAnswer × String) × Session) :=
  session.environments[index]?.bind (session.performIn · action)

end Session
end PixelScript
