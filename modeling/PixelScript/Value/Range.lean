/-! Ranges: iterators that count by ones from a start towards an end. The end is
given out only by an inclusive range, and a range with a bound that is not a number
is empty. -/
namespace PixelScript

structure Range where
  next : Float
  last : Float
  step : Float
  inclusive : Bool
  done : Bool

namespace Range

def between (start last : Float) (inclusive : Bool) : Range where
  next := start
  last := last
  step := if start ≤ last then 1 else -1
  inclusive := inclusive
  done := start.isNaN || last.isNaN

/-- Whether counting has gone past the end at `value`. -/
def isPast (range : Range) (value : Float) : Bool :=
  if range.step > 0 then
    if range.inclusive then value > range.last else value ≥ range.last
  else
    if range.inclusive then value < range.last else value ≤ range.last

/-- The next value, if there is one. A range that has ended stays ended. -/
def advance (range : Range) : Option Float × Range :=
  if range.done || range.isPast range.next then (none, { range with done := true })
  else (some range.next, { range with next := range.next + range.step })

end Range
end PixelScript
