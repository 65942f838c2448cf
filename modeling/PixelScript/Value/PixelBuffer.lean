/-! Pixel buffers: grids of colours with four channels of one byte. The bytes of all
pixels stand in one array, row by row from the top, four to a pixel. A new buffer is
opaque black. -/
namespace PixelScript

structure Color where
  red : UInt8
  green : UInt8
  blue : UInt8
  alpha : UInt8
deriving DecidableEq

namespace Color

def black : Color := ⟨0, 0, 0, 255⟩

def bytes (color : Color) : List UInt8 :=
  [color.red, color.green, color.blue, color.alpha]

/-- A channel from a number: rounded, halves away from zero, and kept within a byte.
What is not a number gives zero. -/
def channel (value : Float) : UInt8 :=
  value.round.toUInt8

/-- The byte of a channel, counted from zero for red. -/
def byte (color : Color) : Nat → UInt8
  | 0 => color.red
  | 1 => color.green
  | 2 => color.blue
  | _ => color.alpha

/-- The bytes of so many pixels in this colour. -/
def tiled (color : Color) (count : Nat) : Array UInt8 :=
  Array.ofFn fun place : Fin (count * 4) => color.byte (place.val % 4)

/-- The colour whose bytes stand from an offset on. -/
def read? (data : Array UInt8) (offset : Nat) : Option Color := do
  let red ← data[offset]?
  let green ← data[offset + 1]?
  let blue ← data[offset + 2]?
  let alpha ← data[offset + 3]?
  return ⟨red, green, blue, alpha⟩

/-- Writes the bytes of a colour from an offset on. -/
def write (color : Color) (data : Array UInt8) (offset : Nat) : Array UInt8 :=
  (((data.setIfInBounds offset color.red).setIfInBounds (offset + 1) color.green).setIfInBounds
    (offset + 2) color.blue).setIfInBounds (offset + 3) color.alpha

@[simp] theorem size_tiled (color : Color) (count : Nat) :
    (color.tiled count).size = count * 4 := Array.size_ofFn

@[simp] theorem size_write (color : Color) (data : Array UInt8) (offset : Nat) :
    (color.write data offset).size = data.size := by
  simp only [write, Array.size_setIfInBounds]

end Color

structure PixelBuffer where
  width : Nat
  height : Nat
  data : Array UInt8
  size_data : data.size = width * height * 4

namespace PixelBuffer

/-- The largest number of bytes that a buffer may have. -/
def maxBytes : Nat := Nat.pow 2 63 - 1

/-- Whether a buffer of these sides has a size that can be addressed. -/
def isAddressable (width height : Nat) : Bool :=
  4 * width * height ≤ maxBytes

def blank (width height : Nat) : PixelBuffer :=
  ⟨width, height, Color.black.tiled (width * height), Color.size_tiled ..⟩

/-- Where the bytes of a pixel start, if it is inside. -/
def offset? (buffer : PixelBuffer) (x y : Nat) : Option Nat :=
  if x < buffer.width ∧ y < buffer.height then some ((y * buffer.width + x) * 4) else none

def pixel? (buffer : PixelBuffer) (x y : Nat) : Option Color :=
  (buffer.offset? x y).bind (Color.read? buffer.data)

/-- Colours one pixel, or changes nothing if it is outside; says whether it was inside. -/
def setPixel (buffer : PixelBuffer) (x y : Nat) (color : Color) : Bool × PixelBuffer :=
  match buffer.offset? x y with
  | some offset =>
    (true,
      { buffer with
        data := color.write buffer.data offset
        size_data := by rw [Color.size_write, buffer.size_data] })
  | none => (false, buffer)

def fill (buffer : PixelBuffer) (color : Color) : PixelBuffer :=
  { buffer with
    data := color.tiled (buffer.width * buffer.height)
    size_data := Color.size_tiled .. }

/-- All bytes, row by row, four to a pixel. -/
def bytes (buffer : PixelBuffer) : List UInt8 :=
  buffer.data.toList

/-- All pixels, row by row. -/
def pixels (buffer : PixelBuffer) : Array Color :=
  (Array.range (buffer.width * buffer.height)).filterMap fun place =>
    Color.read? buffer.data (place * 4)

end PixelBuffer
end PixelScript
