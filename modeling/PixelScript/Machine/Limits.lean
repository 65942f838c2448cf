/-! What a host allows a script. -/
namespace PixelScript

structure Limits where
  /-- How many calls of closures may be under way at once. -/
  maxCallDepth : Nat := 10000
  /-- The longest side of a canvas, if there is a bound. -/
  maxCanvasSide : Option Nat := none
deriving DecidableEq

end PixelScript
