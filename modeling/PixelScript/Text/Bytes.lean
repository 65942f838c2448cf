/-! Texts as lists of characters, measured and cut in UTF-8 bytes. Every offset of
the library is a byte offset, so cutting is partial: an offset inside a character,
or past the end, cuts nothing. -/
namespace PixelScript.Text

/-- Number of bytes that `text` takes in UTF-8. -/
def byteLength : List Char → Nat
  | [] => 0
  | c :: cs => c.utf8Size + byteLength cs

@[simp] theorem byteLength_nil : byteLength [] = 0 := rfl

@[simp] theorem byteLength_cons (c : Char) (cs : List Char) :
    byteLength (c :: cs) = c.utf8Size + byteLength cs := rfl

@[simp] theorem byteLength_append (front back : List Char) :
    byteLength (front ++ back) = byteLength front + byteLength back := by
  induction front with
  | nil => simp
  | cons c cs ih => simp [ih, Nat.add_assoc]

/-- Cuts a text after `offset` bytes, unless the offset lies inside a character or
past the end. -/
def splitAtByte (offset : Nat) : List Char → Option (List Char × List Char)
  | [] => if offset = 0 then some ([], []) else none
  | c :: cs =>
    if offset = 0 then some ([], c :: cs)
    else if offset < c.utf8Size then none
    else (splitAtByte (offset - c.utf8Size) cs).map fun (front, back) => (c :: front, back)

/-- A cut loses nothing and falls exactly at the offset. -/
theorem splitAtByte_eq_some {offset : Nat} {text front back : List Char}
    (cut : splitAtByte offset text = some (front, back)) :
    text = front ++ back ∧ byteLength front = offset := by
  induction text generalizing offset front with
  | nil => simp_all [splitAtByte]
  | cons c cs ih =>
    simp only [splitAtByte] at cut
    split at cut
    · simp_all
    · split at cut
      · simp at cut
      · simp only [Option.map_eq_some_iff, Prod.exists, Prod.mk.injEq] at cut
        obtain ⟨front', back', rest, rfl, rfl⟩ := cut
        obtain ⟨same, length⟩ := ih rest
        exact ⟨by simp [same], by simp only [byteLength_cons, length]; omega⟩

/-- Every boundary between characters can be cut at. -/
theorem splitAtByte_append (front back : List Char) :
    splitAtByte (byteLength front) (front ++ back) = some (front, back) := by
  induction front with
  | nil => cases back <;> simp [splitAtByte]
  | cons c cs ih =>
    have positive := c.utf8Size_pos
    simp only [List.cons_append, splitAtByte, byteLength_cons]
    rw [if_neg (by omega), if_neg (by omega), Nat.add_sub_cancel_left, ih]
    rfl

/-- The part of a text between two byte offsets, if both are boundaries and in order. -/
def slice (start stop : Nat) (text : List Char) : Option (List Char) :=
  if stop < start then none
  else do
    let (_, tail) ← splitAtByte start text
    let (part, _) ← splitAtByte (stop - start) tail
    return part

/-- The text between two byte offsets at boundaries of characters. -/
theorem slice_append (front part back : List Char) :
    slice (byteLength front) (byteLength front + byteLength part) (front ++ (part ++ back)) =
      some part := by
  unfold slice
  rw [if_neg (by omega), splitAtByte_append, Nat.add_sub_cancel_left]
  simp [splitAtByte_append]

/-- The lines of a text, without the newlines that separate them. -/
def lines : List Char → List (List Char)
  | [] => [[]]
  | c :: cs =>
    if c = '\n' then [] :: lines cs
    else match lines cs with
      | [] => [[c]]
      | line :: more => (c :: line) :: more

end PixelScript.Text
