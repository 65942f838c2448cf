import PixelScript.Machine.Basic

/-! New machines, with the ready-made functions and methods. -/
namespace PixelScript.Machine

/-- What a fresh global scope binds. -/
def globalBindings : Bindings :=
  [("true", .boolean true), ("false", .boolean false), ("null", .null),
    (Native.whileLoop.name, .native .whileLoop)] ++
    GlobalFunction.all.map fun function => (function.name, .native (.global function))

def builtinMethods : MethodTable :=
  BuiltinMethod.all.map fun method =>
    ((method.receiverKind, method.name), .native (.builtin method))

/-- A machine with the ready-made functions and methods. -/
def fresh (silent : Bool) : Machine :=
  { empty silent with frames := #[globalBindings], methods := builtinMethods }

/-- The scope that a new machine starts with. -/
def globalScope : Scope := [0]

end PixelScript.Machine
