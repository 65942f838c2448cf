import Mathlib
import PixelScript.Value.PixelBuffer

/-! Pixel buffers as grids. Every pixel has four bytes of its own, so that a buffer is known
by the latest colour of each of its places, whatever was painted before. Sizes and offsets of
a buffer that can be addressed are formed without leaving the machine's words. -/
namespace PixelScript

namespace Color

variable {color : Color} {data : Array UInt8} {offset place count : Nat}

theorem read?_write_self (inside : offset + 3 < data.size) :
    read? (color.write data offset) offset = some color := by
  have red : offset < data.size := by omega
  have green : offset + 1 < data.size := by omega
  have blue : offset + 2 < data.size := by omega
  simp [read?, write, red, green, blue, inside]

/-- Colours that do not overlap leave each other alone. -/
theorem read?_write_apart (apart : offset + 4 ≤ place ∨ place + 4 ≤ offset) :
    read? (color.write data offset) place = read? data place := by
  have kept : ∀ step < 4, (color.write data offset)[place + step]? = data[place + step]? := by
    intro step small
    simp only [write]
    repeat rw [Array.getElem?_setIfInBounds_ne (by omega)]
  simp only [read?, kept 1 (by omega), kept 2 (by omega), kept 3 (by omega)]
  rw [show (color.write data offset)[place]? = data[place]? from kept 0 (by omega)]

theorem read?_tiled (inside : place < count) :
    read? (color.tiled count) (place * 4) = some color := by
  have each : ∀ step < 4, (color.tiled count)[place * 4 + step]? = some (color.byte step) := by
    intro step small
    rw [tiled, Array.getElem?_ofFn, dif_pos (by omega), Nat.mul_add_mod_self_right,
      Nat.mod_eq_of_lt small]
  simp only [read?, each 1 (by omega), each 2 (by omega), each 3 (by omega)]
  rw [show (color.tiled count)[place * 4]? = some (color.byte 0) from each 0 (by omega)]
  rfl

/-- Where four bytes are left, a colour can be read. -/
theorem exists_read? (inside : offset + 3 < data.size) :
    ∃ color, read? data offset = some color := by
  have red : offset < data.size := by omega
  have green : offset + 1 < data.size := by omega
  have blue : offset + 2 < data.size := by omega
  simp [read?, red, green, blue, inside]

/-- A colour that can be read has its bytes there, in their order. -/
theorem take_of_read? (read : read? data offset = some color) :
    data.toList.take (offset + 4) = data.toList.take offset ++ color.bytes := by
  simp only [read?, bind, Option.bind_eq_some_iff, pure, Option.some.injEq] at read
  obtain ⟨red, first, green, second, blue, third, alpha, fourth, rfl⟩ := read
  simp only [← Array.getElem?_toList] at first second third fourth
  simp [List.take_add_one, bytes, first, second, third, fourth]

end Color

namespace PixelBuffer

variable {buffer : PixelBuffer} {x y column row offset place : Nat} {color : Color}

theorem offset?_eq_some : buffer.offset? x y = some offset ↔
    x < buffer.width ∧ y < buffer.height ∧ (y * buffer.width + x) * 4 = offset := by
  simp [offset?, and_assoc]

theorem offset?_inside (inside : x < buffer.width ∧ y < buffer.height) :
    buffer.offset? x y = some ((y * buffer.width + x) * 4) :=
  if_pos inside

/-- Inside a grid a place comes before the end of the last row. -/
theorem place_lt {width height : Nat} (inside : x < width ∧ y < height) :
    y * width + x < width * height :=
  calc y * width + x < y * width + width := by omega
    _ = (y + 1) * width := by rw [Nat.succ_mul]
    _ ≤ height * width := Nat.mul_le_mul_right _ inside.2
    _ = width * height := Nat.mul_comm ..

/-- All four bytes of a pixel are in the buffer. -/
theorem offset?_lt (found : buffer.offset? x y = some offset) :
    offset + 3 < buffer.data.size := by
  obtain ⟨left, above, rfl⟩ := offset?_eq_some.mp found
  have before := place_lt ⟨left, above⟩
  rw [buffer.size_data]
  omega

/-- Different pixels have no byte in common. -/
theorem offset?_apart (found : buffer.offset? x y = some offset)
    (found' : buffer.offset? column row = some place) (other : ¬ (column = x ∧ row = y)) :
    offset + 4 ≤ place ∨ place + 4 ≤ offset := by
  obtain ⟨left, -, rfl⟩ := offset?_eq_some.mp found
  obtain ⟨left', -, rfl⟩ := offset?_eq_some.mp found'
  suffices row * buffer.width + column ≠ y * buffer.width + x by omega
  intro same
  have positive : 0 < buffer.width := by omega
  have columns := congrArg (· % buffer.width) same
  have rows := congrArg (· / buffer.width) same
  simp only [Nat.mul_comm _ buffer.width, Nat.mul_add_mod, Nat.mod_eq_of_lt left,
    Nat.mod_eq_of_lt left'] at columns
  simp only [Nat.mul_comm _ buffer.width, Nat.mul_add_div positive, Nat.div_eq_of_lt left,
    Nat.div_eq_of_lt left', Nat.add_zero] at rows
  exact other ⟨columns, rows⟩

theorem pixel?_isSome_iff : (buffer.pixel? x y).isSome ↔ x < buffer.width ∧ y < buffer.height := by
  constructor
  · intro some?
    obtain ⟨color, known⟩ := Option.isSome_iff_exists.mp some?
    obtain ⟨offset, found, -⟩ := Option.bind_eq_some_iff.mp known
    obtain ⟨left, above, -⟩ := offset?_eq_some.mp found
    exact ⟨left, above⟩
  · intro inside
    have found := offset?_inside inside
    obtain ⟨color, read⟩ := Color.exists_read? (offset?_lt found)
    simp [pixel?, found, read]

theorem pixel?_blank (width height : Nat) : (blank width height).pixel? x y =
    if x < width ∧ y < height then some Color.black else none := by
  by_cases inside : x < width ∧ y < height
  · rw [if_pos inside, pixel?, offset?_inside inside, Option.bind_some]
    exact Color.read?_tiled (place_lt inside)
  · rw [if_neg inside, pixel?, offset?, blank, if_neg inside, Option.bind_none]

theorem pixel?_fill (buffer : PixelBuffer) (color : Color) (x y : Nat) :
    (buffer.fill color).pixel? x y = (buffer.pixel? x y).map fun _ => color := by
  by_cases inside : x < buffer.width ∧ y < buffer.height
  · obtain ⟨before, known⟩ := Option.isSome_iff_exists.mp (pixel?_isSome_iff.mpr inside)
    rw [known, Option.map_some, pixel?, offset?, fill, if_pos inside, Option.bind_some]
    exact Color.read?_tiled (place_lt inside)
  · rw [pixel?, pixel?, offset?, offset?, fill, if_neg inside]
    rfl

@[simp] theorem width_setPixel (buffer : PixelBuffer) (x y : Nat) (color : Color) :
    (buffer.setPixel x y color).2.width = buffer.width := by
  unfold setPixel
  split <;> rfl

@[simp] theorem height_setPixel (buffer : PixelBuffer) (x y : Nat) (color : Color) :
    (buffer.setPixel x y color).2.height = buffer.height := by
  unfold setPixel
  split <;> rfl

theorem pixel?_setPixel (buffer : PixelBuffer) (x y : Nat) (color : Color) (column row : Nat) :
    (buffer.setPixel x y color).2.pixel? column row =
      if column = x ∧ row = y then (buffer.pixel? x y).map fun _ => color
      else buffer.pixel? column row := by
  cases found : buffer.offset? x y with
  | none =>
    have outside : buffer.pixel? x y = none := by rw [pixel?, found, Option.bind_none]
    simp only [setPixel, found]
    split
    next same =>
      obtain ⟨rfl, rfl⟩ := same
      rw [outside, Option.map_none]
    next => rfl
  | some offset =>
    simp only [setPixel, found]
    -- The sides are the same, so that every pixel keeps its place.
    change ((buffer.offset? column row).bind (Color.read? (color.write buffer.data offset))) = _
    split
    next same =>
      obtain ⟨rfl, rfl⟩ := same
      obtain ⟨before, read⟩ := Color.exists_read? (offset?_lt found)
      rw [pixel?, found, Option.bind_some, Option.bind_some, read,
        Color.read?_write_self (offset?_lt found), Option.map_some]
    next other =>
      refine Option.bind_congr fun place there => ?_
      exact Color.read?_write_apart (offset?_apart found there other)

theorem setPixel_refused_iff (buffer : PixelBuffer) (x y : Nat) (color : Color) :
    (buffer.setPixel x y color).1 = false ↔ ¬ (x < buffer.width ∧ y < buffer.height) := by
  by_cases inside : x < buffer.width ∧ y < buffer.height
  · simp [setPixel, offset?_inside inside, inside]
  · simp [setPixel, offset?, inside]

theorem setPixel_of_refused (refused : (buffer.setPixel x y color).1 = false) :
    (buffer.setPixel x y color).2 = buffer := by
  have outside := (setPixel_refused_iff buffer x y color).mp refused
  simp [setPixel, offset?, outside]

/-- The bytes of a buffer are those of its pixels. -/
theorem bytes_eq_flatMap (buffer : PixelBuffer) :
    buffer.bytes = buffer.pixels.toList.flatMap Color.bytes := by
  have front : ∀ count ≤ buffer.width * buffer.height, buffer.bytes.take (count * 4) =
      ((List.range count).filterMap fun place => Color.read? buffer.data (place * 4)).flatMap
        Color.bytes := by
    intro count bound
    induction count with
    | zero => simp
    | succ count ih =>
      obtain ⟨color, read⟩ : ∃ color, Color.read? buffer.data (count * 4) = some color :=
        Color.exists_read? (by rw [buffer.size_data]; omega)
      rw [Nat.succ_mul, bytes, Color.take_of_read? read, ← bytes, ih (by omega), List.range_succ,
        List.filterMap_append, List.flatMap_append]
      simp [read]
  have all := front _ (Nat.le_refl _)
  rw [List.take_of_length_le (by simp [bytes, buffer.size_data])] at all
  simpa [pixels] using all

/-- The places of a grid, row by row. -/
theorem range_mul_eq_flatMap (width height : Nat) : List.range (width * height) =
    (List.range height).flatMap fun y => (List.range width).map (y * width + ·) := by
  induction height with
  | zero => simp
  | succ height ih =>
    rw [Nat.mul_succ, List.range_add, ih, List.range_succ, List.flatMap_append, Nat.mul_comm width]
    simp

theorem pixels_eq_flatMap (buffer : PixelBuffer) : buffer.pixels.toList =
    (List.range buffer.height).flatMap fun y =>
      (List.range buffer.width).filterMap fun x => buffer.pixel? x y := by
  rw [pixels, Array.toList_filterMap, Array.toList_range, range_mul_eq_flatMap,
    List.filterMap_flatMap]
  refine List.flatMap_congr fun y above => ?_
  rw [List.filterMap_map]
  refine List.filterMap_congr fun x left => ?_
  rw [List.mem_range] at above left
  rw [pixel?, offset?_inside ⟨left, above⟩]
  rfl

end PixelBuffer

/-- A call that changes pixels of a buffer. -/
inductive Painting where
  | pixel (x y : Nat) (color : Color)
  | all (color : Color)

namespace Painting

def apply : Painting → PixelBuffer → PixelBuffer
  | pixel x y color, buffer => (buffer.setPixel x y color).2
  | all color, buffer => buffer.fill color

/-- The colour that a call gives to a pixel, if it reaches this pixel. -/
def colorAt? (column row : Nat) : Painting → Option Color
  | pixel x y color => if column = x ∧ row = y then some color else none
  | all color => some color

/-- The colour that the latest call to reach a pixel gave to it. -/
def latest? (column row : Nat) (paintings : List Painting) : Option Color :=
  paintings.reverse.findSome? (colorAt? column row)

variable (painting : Painting) (buffer : PixelBuffer)

@[simp] theorem width_apply : (painting.apply buffer).width = buffer.width := by
  cases painting with
  | pixel x y color => exact buffer.width_setPixel x y color
  | all => rfl

@[simp] theorem height_apply : (painting.apply buffer).height = buffer.height := by
  cases painting with
  | pixel x y color => exact buffer.height_setPixel x y color
  | all => rfl

/-- What one call does to a pixel. -/
theorem pixel?_apply (column row : Nat) : (painting.apply buffer).pixel? column row =
    (buffer.pixel? column row).map (painting.colorAt? column row).getD := by
  cases painting with
  | all color => exact buffer.pixel?_fill color column row
  | pixel x y color =>
    rw [apply, buffer.pixel?_setPixel, colorAt?]
    split
    next same =>
      obtain ⟨rfl, rfl⟩ := same
      rfl
    next => exact Option.map_id'.symm

end Painting

namespace PixelBuffer

/-- A buffer after calls, one after another. -/
def painted (buffer : PixelBuffer) (paintings : List Painting) : PixelBuffer :=
  paintings.foldl (fun buffer painting => painting.apply buffer) buffer

theorem sides_painted (buffer : PixelBuffer) (paintings : List Painting) :
    (buffer.painted paintings).width = buffer.width ∧
      (buffer.painted paintings).height = buffer.height := by
  induction paintings generalizing buffer with
  | nil => exact ⟨rfl, rfl⟩
  | cons painting paintings ih =>
    have later := ih (painting.apply buffer)
    rwa [Painting.width_apply, Painting.height_apply] at later

/-- A pixel has the colour of the latest call that reached it, or else the one it had. -/
theorem pixel?_painted (buffer : PixelBuffer) (paintings : List Painting) (x y : Nat) :
    (buffer.painted paintings).pixel? x y =
      (buffer.pixel? x y).map (Painting.latest? x y paintings).getD := by
  induction paintings generalizing buffer with
  | nil => exact Option.map_id'.symm
  | cons painting paintings ih =>
    have earlier : Painting.latest? x y (painting :: paintings) =
        (Painting.latest? x y paintings).or (painting.colorAt? x y) := by
      simp [Painting.latest?, List.findSome?_append]
    rw [painted, List.foldl_cons, ← painted, ih, painting.pixel?_apply, Option.map_map, earlier]
    congr 1
    funext color
    cases Painting.latest? x y paintings <;> rfl

end PixelBuffer

/-- A number, if a word of 64 bits can hold it. -/
def inWord? (number : Nat) : Option Nat :=
  if number < Nat.pow 2 64 then some number else none

theorem inWord?_of_le {number : Nat} (small : number ≤ PixelBuffer.maxBytes) :
    inWord? number = some number :=
  if_pos (Nat.lt_of_le_of_lt small (by decide))

namespace PixelBuffer

/-- The number of bytes of a buffer, with every step of the computation in a word. -/
def wordSize? (width height : Nat) : Option Nat := do
  let count ← inWord? (width * height)
  inWord? (count * 4)

/-- The offset of a pixel, with every step of the computation in a word. -/
def wordOffset? (width x y : Nat) : Option Nat := do
  let start ← inWord? (y * width)
  let place ← inWord? (start + x)
  inWord? (place * 4)

theorem wordSize?_eq {width height : Nat} (fits : width * height * 4 ≤ maxBytes) :
    wordSize? width height = some (width * height * 4) := by
  have count : width * height ≤ maxBytes := by omega
  simp [wordSize?, inWord?_of_le count, inWord?_of_le fits]

theorem wordOffset?_eq {width height x y : Nat} (fits : width * height * 4 ≤ maxBytes)
    (inside : x < width ∧ y < height) :
    wordOffset? width x y = some ((y * width + x) * 4) := by
  have before := place_lt inside
  have start : y * width ≤ maxBytes := by omega
  have place : y * width + x ≤ maxBytes := by omega
  have offset : (y * width + x) * 4 ≤ maxBytes := by omega
  simp [wordOffset?, inWord?_of_le start, inWord?_of_le place, inWord?_of_le offset]

/-- A buffer is a faithful grid. Let its sides be addressable, or let one be zero. Then its
size and the offsets of its pixels are formed without leaving a word, and after any calls:
there are four bytes for each pixel; the pixels inside, and no others, have a colour, which is
that of the latest call that reached them, or opaque black; setting a pixel fails exactly
outside, and changes no byte there; and the bytes are those of the pixels, row by row. -/
theorem painted_grid (width height : Nat)
    (fits : isAddressable width height = true ∨ width = 0 ∨ height = 0)
    (paintings : List Painting) :
    let buffer := (blank width height).painted paintings
    wordSize? width height = some buffer.bytes.length ∧
    buffer.bytes.length = 4 * width * height ∧
    (∀ x y, x < width → y < height →
      ∃ offset, buffer.offset? x y = some offset ∧ wordOffset? width x y = some offset) ∧
    (∀ x y, buffer.pixel? x y =
      if x < width ∧ y < height then
        some ((Painting.latest? x y paintings).getD ⟨0, 0, 0, 255⟩)
      else none) ∧
    (∀ x y color,
      ((buffer.setPixel x y color).1 = false ↔ ¬ (x < width ∧ y < height)) ∧
      ((buffer.setPixel x y color).1 = false → (buffer.setPixel x y color).2 = buffer)) ∧
    buffer.bytes = (List.range height).flatMap fun y => (List.range width).flatMap fun x =>
      (buffer.pixel? x y).toList.flatMap Color.bytes := by
  intro buffer
  obtain ⟨columns, rows⟩ : buffer.width = width ∧ buffer.height = height :=
    sides_painted (blank width height) paintings
  have bound : width * height * 4 ≤ maxBytes := by
    obtain fits | rfl | rfl := fits
    · have := of_decide_eq_true fits
      rwa [Nat.mul_comm, ← Nat.mul_assoc]
    all_goals simp
  have length : buffer.bytes.length = width * height * 4 := by
    rw [bytes, Array.length_toList, buffer.size_data, columns, rows]
  refine ⟨?_, ?_, fun x y left above => ?_, fun x y => ?_, fun x y color => ⟨?_, ?_⟩, ?_⟩
  · rw [length, wordSize?_eq bound]
  · rw [length, Nat.mul_comm, Nat.mul_assoc]
  · refine ⟨(y * width + x) * 4, ?_, wordOffset?_eq bound ⟨left, above⟩⟩
    rw [offset?, columns, rows, if_pos ⟨left, above⟩]
  · rw [pixel?_painted, pixel?_blank]
    split <;> rfl
  · rw [setPixel_refused_iff, columns, rows]
  · exact setPixel_of_refused
  · rw [bytes_eq_flatMap, pixels_eq_flatMap, columns, rows, List.flatMap_assoc]
    refine List.flatMap_congr fun y _ => ?_
    rw [List.filterMap_eq_flatMap_toList, List.flatMap_assoc]

/-- A fill, a pixel far outside and a pixel inside: the far one is refused, and its offset is
not formed. -/
theorem painted_grid_strip :
    let paintings : List Painting := [.all ⟨8, 8, 8, 255⟩,
      .pixel 18446744073709551615 18446744073709551615 ⟨9, 9, 9, 9⟩, .pixel 1 0 ⟨255, 0, 0, 255⟩]
    let buffer := (blank 2 1).painted paintings
    isAddressable 2 1 = true ∧ wordSize? 2 1 = some buffer.bytes.length ∧
      buffer.pixel? 0 0 = some ⟨8, 8, 8, 255⟩ ∧ buffer.pixel? 1 0 = some ⟨255, 0, 0, 255⟩ ∧
      buffer.pixel? 18446744073709551615 18446744073709551615 = none ∧
      buffer.bytes = [8, 8, 8, 255, 255, 0, 0, 255] := by
  intro paintings buffer
  obtain ⟨size, _, _, pixels, _, rows⟩ := painted_grid 2 1 (.inl (by decide)) paintings
  have first : buffer.pixel? 0 0 = some ⟨8, 8, 8, 255⟩ := (pixels 0 0).trans (by decide)
  have second : buffer.pixel? 1 0 = some ⟨255, 0, 0, 255⟩ := (pixels 1 0).trans (by decide)
  refine ⟨by decide, size, first, second, (pixels _ _).trans (by decide), rows.trans ?_⟩
  change ((buffer.pixel? 0 0).toList.flatMap Color.bytes ++
    ((buffer.pixel? 1 0).toList.flatMap Color.bytes ++ [])) ++ [] = _
  rw [first, second]
  rfl

end PixelBuffer

end PixelScript
