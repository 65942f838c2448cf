import PixelScript.Text.Bytes

/-! Spans: half-open ranges of byte offsets into a source text. Offsets are kept up
to a fixed largest value, and a range beyond it is cut back to that value. -/
namespace PixelScript

structure Span where
  start : Nat
  stop : Nat
deriving DecidableEq

namespace Span

/-- The largest offset that a span holds. -/
def maxOffset : Nat := 4294967295

/-- The span of a byte range; an end past the largest offset is moved back to it. -/
def ofRange (start stop : Nat) : Span :=
  ⟨min start maxOffset, min stop maxOffset⟩

/-- The empty span at an offset. -/
def point (offset : Nat) : Span :=
  ⟨offset, offset⟩

def length (span : Span) : Nat :=
  span.stop - span.start

def isEmpty (span : Span) : Bool :=
  span.start == span.stop

/-- The smallest span that covers both. -/
def merge (first second : Span) : Span :=
  ⟨min first.start second.start, max first.stop second.stop⟩

/-- The text that a span covers, if both ends are character boundaries in order. -/
def slice? (span : Span) (source : List Char) : Option (List Char) :=
  Text.slice span.start span.stop source

def text (span : Span) : String :=
  toString span.start ++ ".." ++ toString span.stop

end Span
end PixelScript
