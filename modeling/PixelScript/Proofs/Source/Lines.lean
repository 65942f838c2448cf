import Mathlib
import PixelScript.Source.Position

/-! Lines and columns name offsets. A text in front of an offset is a number of whole lines and
the beginning of one more, and its position counts both. So the offset can be found again from
its position and the lines of the source, and positions are ordered as offsets are. -/
namespace PixelScript

namespace Text

/-- Lines as they stand in a text, each with the newline that ends it. -/
def ended (earlier : List (List Char)) : List Char :=
  earlier.flatMap (· ++ ['\n'])

@[simp] theorem ended_nil : ended [] = [] := rfl

@[simp] theorem ended_cons (line : List Char) (earlier : List (List Char)) :
    ended (line :: earlier) = line ++ '\n' :: ended earlier := by
  simp [ended]

/-- Every text is a number of ended lines and a line that may go on. -/
theorem exists_ended (text : List Char) :
    ∃ earlier line, text = ended earlier ++ line ∧ (∀ whole ∈ earlier, '\n' ∉ whole) ∧
      '\n' ∉ line := by
  induction text with
  | nil => exact ⟨[], [], rfl, by simp, by simp⟩
  | cons c text ih =>
    obtain ⟨earlier, line, rfl, closed, last⟩ := ih
    by_cases newline : c = '\n'
    · subst newline
      exact ⟨[] :: earlier, line, rfl, by simpa using closed, last⟩
    · cases earlier with
      | nil => exact ⟨[], c :: line, rfl, by simp, by simp [Ne.symm newline, last]⟩
      | cons first earlier =>
        obtain ⟨here, later⟩ := List.forall_mem_cons.mp closed
        refine ⟨(c :: first) :: earlier, line, rfl, ?_, last⟩
        exact List.forall_mem_cons.mpr ⟨by simp [Ne.symm newline, here], later⟩

theorem byteLength_ended (earlier : List (List Char)) :
    byteLength (ended earlier) = (earlier.map fun line => byteLength line + 1).sum := by
  induction earlier with
  | nil => rfl
  | cons line earlier ih =>
    rw [ended_cons, byteLength_append, byteLength_cons, ih, List.map_cons, List.sum_cons]
    exact (Nat.add_assoc ..).symm

theorem count_ended {earlier : List (List Char)} (closed : ∀ line ∈ earlier, '\n' ∉ line) :
    (ended earlier).count '\n' = earlier.length := by
  induction earlier with
  | nil => rfl
  | cons line earlier ih =>
    obtain ⟨here, later⟩ := List.forall_mem_cons.mp closed
    rw [ended_cons, List.count_append, List.count_eq_zero_of_not_mem here, List.count_cons_self,
      ih later, Nat.zero_add, List.length_cons]

/-- In front of a line there is nothing, or the newline of the line before. -/
theorem getLast?_ended (earlier : List (List Char)) :
    ended earlier = [] ∨ (ended earlier).getLast? = some '\n' := by
  obtain rfl | ⟨more, last, rfl⟩ := List.eq_nil_or_concat' earlier
  · exact .inl rfl
  · right
    simp [ended]

/-- Characters in front of a text belong to its first line. -/
theorem lines_append {line rest first : List Char} {later : List (List Char)}
    (opened : '\n' ∉ line) (split : lines rest = first :: later) :
    lines (line ++ rest) = (line ++ first) :: later := by
  induction line with
  | nil => exact split
  | cons c line ih =>
    rw [List.mem_cons, not_or] at opened
    simp [lines, Ne.symm opened.1, ih opened.2]

/-- The first line of a text goes up to the first newline. -/
theorem exists_lines (text : List Char) :
    ∃ later, lines text = text.takeWhile (· ≠ '\n') :: later := by
  induction text with
  | nil => exact ⟨[], rfl⟩
  | cons c text ih =>
    by_cases newline : c = '\n'
    · subst newline
      exact ⟨lines text, rfl⟩
    · obtain ⟨later, split⟩ := ih
      exact ⟨later, by simp [lines, newline, split]⟩

theorem lines_ended {earlier : List (List Char)} (closed : ∀ line ∈ earlier, '\n' ∉ line)
    (rest : List Char) : lines (ended earlier ++ rest) = earlier ++ lines rest := by
  induction earlier with
  | nil => rfl
  | cons line earlier ih =>
    obtain ⟨here, later⟩ := List.forall_mem_cons.mp closed
    have newline : lines ('\n' :: (ended earlier ++ rest)) = [] :: (earlier ++ lines rest) := by
      rw [← ih later]
      rfl
    rw [ended_cons, List.append_assoc, List.cons_append, lines_append here newline,
      List.append_nil, List.cons_append]

/-- The line that goes on behind a text, among the lines of the whole. -/
theorem lines_split {earlier : List (List Char)} {line : List Char}
    (closed : ∀ whole ∈ earlier, '\n' ∉ whole) (opened : '\n' ∉ line) (back : List Char) :
    ∃ later, lines (ended earlier ++ line ++ back) =
      earlier ++ (line ++ back.takeWhile (· ≠ '\n')) :: later := by
  obtain ⟨later, split⟩ := exists_lines back
  refine ⟨later, ?_⟩
  rw [List.append_assoc, lines_ended closed, lines_append opened split]

/-- An offset between two characters, or at an end of the text. -/
def IsBoundary (text : List Char) (offset : Nat) : Prop :=
  ∃ front back, text = front ++ back ∧ byteLength front = offset

theorem byteLength_le_of_prefix {front text : List Char} (front? : front <+: text) :
    byteLength front ≤ byteLength text := by
  obtain ⟨back, rfl⟩ := front?
  rw [byteLength_append]
  exact Nat.le_add_right ..

/-- Of two boundaries, the earlier one comes with the shorter text in front. -/
theorem exists_between {front front' text : List Char} (front? : front <+: text)
    (front'? : front' <+: text) (less : byteLength front < byteLength front') :
    ∃ c between, front' = front ++ c :: between := by
  rcases List.prefix_or_prefix_of_prefix front? front'? with shorter | longer
  · obtain ⟨between, rfl⟩ := shorter
    cases between with
    | nil => simp at less
    | cons c between => exact ⟨c, between, rfl⟩
  · have := byteLength_le_of_prefix longer
    omega

/-- No cut inside a character. -/
theorem splitAtByte_inside {front back : List Char} {c : Char} {offset : Nat}
    (above : byteLength front < offset) (below : offset < byteLength front + c.utf8Size) :
    splitAtByte offset (front ++ c :: back) = none := by
  rw [Option.eq_none_iff_forall_not_mem]
  rintro ⟨front', back'⟩ cut
  obtain ⟨same, rfl⟩ := splitAtByte_eq_some cut
  obtain ⟨d, between, rfl⟩ :=
    exists_between (List.prefix_append front _) (same ▸ List.prefix_append front' back') above
  rw [List.append_assoc] at same
  obtain ⟨rfl, -⟩ := List.cons.inj (List.append_cancel_left same)
  simp only [byteLength_append, byteLength_cons] at below
  omega

theorem splitAtByte_past {text : List Char} {offset : Nat} (past : byteLength text < offset) :
    splitAtByte offset text = none := by
  rw [Option.eq_none_iff_forall_not_mem]
  rintro ⟨front, back⟩ cut
  obtain ⟨rfl, rfl⟩ := splitAtByte_eq_some cut
  rw [byteLength_append] at past
  omega

end Text

namespace Position

/-- `first.Before second`: on an earlier line, or further left on the same line. -/
def Before (first second : Position) : Prop :=
  first.line < second.line ∨ first.line = second.line ∧ first.column < second.column

theorem Before.ne {first second : Position} (before : first.Before second) : first ≠ second := by
  rintro rfl
  rcases before with line | ⟨-, column⟩
  · exact Nat.lt_irrefl _ line
  · exact Nat.lt_irrefl _ column

theorem ofOffset_boundary (front back : List Char) :
    ofOffset (front ++ back) (Text.byteLength front) = after front := by
  rw [ofOffset, textBefore, Text.splitAtByte_append]
  rfl

theorem ofOffset_of_none {source : List Char} {offset : Nat}
    (uncut : Text.splitAtByte offset source = none) : ofOffset source offset = after source := by
  rw [ofOffset, textBefore, uncut]
  rfl

theorem ofOffset_end (source : List Char) :
    ofOffset source (Text.byteLength source) = after source := by
  simpa using ofOffset_boundary source []

/-- The line counts the lines that have ended, and the column the characters since then. -/
theorem after_ended {earlier : List (List Char)} {line : List Char}
    (closed : ∀ whole ∈ earlier, '\n' ∉ whole) (opened : '\n' ∉ line) :
    after (Text.ended earlier ++ line) = ⟨earlier.length + 1, line.length + 1⟩ := by
  have run : ∀ c ∈ line.reverse, decide (c ≠ '\n') = true := by
    intro c member
    refine decide_eq_true ?_
    rintro rfl
    exact opened (List.mem_reverse.mp member)
  have stop : (Text.ended earlier).reverse.takeWhile (· ≠ '\n') = [] := by
    rcases Text.getLast?_ended earlier with none | last
    · rw [none]
      rfl
    · obtain ⟨front, split⟩ := List.getLast?_eq_some_iff.mp last
      simp [split]
  rw [after, List.count_append, Text.count_ended closed, List.count_eq_zero_of_not_mem opened,
    List.reverse_append, List.takeWhile_append_of_pos run, stop, List.append_nil,
    List.length_reverse, Nat.add_zero]

/-- Positions grow with the text in front of them. -/
theorem after_before (front : List Char) (c : Char) (between : List Char) :
    (after front).Before (after (front ++ c :: between)) := by
  obtain ⟨earlier, line, rfl, closed, opened⟩ := Text.exists_ended front
  obtain ⟨earlier', line', same, closed', opened'⟩ := Text.exists_ended (c :: between)
  rw [after_ended closed opened, List.append_assoc, same]
  cases earlier' with
  | nil =>
    -- the same line goes on
    have goes : '\n' ∉ line ++ line' := by simp [opened, opened']
    have solid : line' ≠ [] := by
      rintro rfl
      simp at same
    rw [Text.ended_nil, List.nil_append, after_ended closed goes]
    right
    refine ⟨rfl, ?_⟩
    have := List.length_pos_iff.mpr solid
    rw [List.length_append]
    dsimp only
    omega
  | cons first earlier' =>
    obtain ⟨here, later⟩ := List.forall_mem_cons.mp closed'
    have joined : '\n' ∉ line ++ first := by simp [opened, here]
    have all : ∀ whole ∈ earlier ++ (line ++ first) :: earlier', '\n' ∉ whole :=
      List.forall_mem_append.mpr ⟨closed, List.forall_mem_cons.mpr ⟨joined, later⟩⟩
    have whole : Text.ended earlier ++ (line ++ (Text.ended (first :: earlier') ++ line')) =
        Text.ended (earlier ++ (line ++ first) :: earlier') ++ line' := by
      simp [Text.ended]
    rw [whole, after_ended all opened']
    left
    simp only [List.length_append, List.length_cons]
    omega

/-- Positions are invertible. The offset of a boundary is the length of the lines before its
own, each with its newline, and of the characters that its column counts. So different
boundaries have different positions, which follow one another as the boundaries do. Any other
offset, behind the end or inside a character, has the position of the end. -/
theorem ofOffset_invertible (source : List Char) :
    (∀ offset, Text.IsBoundary source offset →
      ∃ line column text, ofOffset source offset = ⟨line + 1, column + 1⟩ ∧
        (Text.lines source)[line]? = some text ∧ column ≤ text.length ∧
        offset = (((Text.lines source).take line).map fun whole => Text.byteLength whole + 1).sum +
          Text.byteLength (text.take column)) ∧
    (∀ offset offset', Text.IsBoundary source offset → Text.IsBoundary source offset' →
      offset ≠ offset' → ofOffset source offset ≠ ofOffset source offset') ∧
    (∀ offset offset', Text.IsBoundary source offset → Text.IsBoundary source offset' →
      offset < offset' → (ofOffset source offset).Before (ofOffset source offset')) ∧
    ∀ offset, (Text.byteLength source < offset ∨
        ∃ front c back, source = front ++ c :: back ∧ Text.byteLength front < offset ∧
          offset < Text.byteLength front + c.utf8Size) →
      ofOffset source offset = ofOffset source (Text.byteLength source) := by
  have ordered : ∀ offset offset', Text.IsBoundary source offset →
      Text.IsBoundary source offset' → offset < offset' →
      (ofOffset source offset).Before (ofOffset source offset') := by
    rintro _ _ ⟨front, back, rfl, rfl⟩ ⟨front', back', same, rfl⟩ less
    obtain ⟨c, between, rfl⟩ :=
      Text.exists_between (List.prefix_append front back) (same ▸ List.prefix_append _ _) less
    rw [ofOffset_boundary, same, ofOffset_boundary]
    exact after_before front c between
  refine ⟨?_, ?_, ordered, ?_⟩
  · rintro _ ⟨front, back, rfl, rfl⟩
    obtain ⟨earlier, start, rfl, closed, opened⟩ := Text.exists_ended front
    obtain ⟨later, split⟩ := Text.lines_split closed opened back
    refine ⟨earlier.length, start.length, start ++ back.takeWhile (· ≠ '\n'), ?_, ?_, ?_, ?_⟩
    · rw [ofOffset_boundary, after_ended closed opened]
    · rw [split]
      simp
    · simp
    · rw [split, List.take_left, List.take_left, Text.byteLength_append, Text.byteLength_ended]
  · intro offset offset' boundary boundary' differ
    rcases Nat.lt_or_gt_of_ne differ with less | less
    · exact (ordered offset offset' boundary boundary' less).ne
    · exact (ordered offset' offset boundary' boundary less).ne.symm
  · rintro offset (past | ⟨front, c, back, rfl, above, below⟩)
    · rw [ofOffset_end, ofOffset_of_none (Text.splitAtByte_past past)]
    · rw [ofOffset_end, ofOffset_of_none (Text.splitAtByte_inside above below)]

/-- A character of two bytes, a carriage return and a newline in front of the second line. -/
theorem ofOffset_invertible_accent :
    let source := ['é', '\r', '\n', 'a', 'b']
    Text.IsBoundary source 3 ∧ Text.IsBoundary source 5 ∧
      (∃ line column text, ofOffset source 5 = ⟨line + 1, column + 1⟩ ∧
        (Text.lines source)[line]? = some text ∧ column ≤ text.length ∧
        5 = (((Text.lines source).take line).map fun whole => Text.byteLength whole + 1).sum +
          Text.byteLength (text.take column)) ∧
      ofOffset source 3 ≠ ofOffset source 5 ∧ (ofOffset source 3).Before (ofOffset source 5) ∧
      ofOffset source 1 = ofOffset source 6 ∧ ofOffset source 9 = ofOffset source 6 := by
  intro source
  have first : Text.IsBoundary source 3 := ⟨['é', '\r'], ['\n', 'a', 'b'], rfl, rfl⟩
  have second : Text.IsBoundary source 5 := ⟨['é', '\r', '\n', 'a'], ['b'], rfl, rfl⟩
  obtain ⟨inverse, distinct, ordered, other⟩ := ofOffset_invertible source
  refine ⟨first, second, inverse 5 second, distinct 3 5 first second (by decide),
    ordered 3 5 first second (by decide), other 1 (.inr ?_), other 9 (.inl (by decide))⟩
  exact ⟨[], 'é', ['\r', '\n', 'a', 'b'], rfl, by decide, by decide⟩

end Position

end PixelScript
