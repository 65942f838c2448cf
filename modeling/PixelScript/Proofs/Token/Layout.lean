import PixelScript.Proofs.Syntax.Joining

/-! The layout of a text: which characters belong to tokens, and what stands between them.
Tokens follow one another without overlap, each covers at least one character, and what
lies between them is blank or a comment. Any row of tokens is read again from the text that
it covers, whatever stood around it. -/
namespace PixelScript

/-- `Gap rest gap`: characters between tokens, in front of `rest`. A comment takes the rest of
its line. -/
inductive Gap (rest : List Char) : List Char → Prop
  | none : Gap rest []
  | blank (blank : c = ' ' ∨ c = '\t' ∨ c = '\r') (more : Gap rest gap) : Gap rest (c :: gap)
  | comment (line : '\n' ∉ words) (ends : rest = [] ∨ rest.head? = some '\n') :
      Gap rest ('/' :: '/' :: words)

namespace Gap

theorem append (blanks : ∀ c ∈ front, Scan.isBlank c = true) (more : Gap rest gap) :
    Gap rest (front ++ gap) := by
  induction front with
  | nil => exact more
  | cons c front ih =>
    obtain ⟨first, later⟩ := List.forall_mem_cons.mp blanks
    refine .blank ?_ (ih later)
    simpa [Scan.isBlank, or_assoc] using first

/-- A line break belongs to no gap, and there is nothing behind the end. -/
theorem eq_nil (gap? : Gap rest gap)
    (ends : gap ++ rest = [] ∨ (gap ++ rest).head? = some '\n') : gap = [] := by
  cases gap? with
  | none => rfl
  | blank blank =>
    obtain rfl | rfl | rfl := blank <;> simp at ends
  | comment => simp at ends

end Gap

namespace Scan

/-- The longest run in front, given where it ends. -/
theorem takeWhile_front {p : Char → Bool} {front back : List Char}
    (length : ((front ++ back).takeWhile p).length = front.length) :
    (∀ c ∈ front, p c = true) ∧ ∀ c, back.head? = some c → p c = false := by
  have taken : (front ++ back).takeWhile p = front :=
    List.IsPrefix.eq_of_length
      (List.prefix_of_prefix_length_le (List.takeWhile_prefix p) (List.prefix_append front back)
        (Nat.le_of_eq length)) length
  have inside : ∀ c ∈ front, p c = true := by
    intro c member
    rw [← taken] at member
    exact List.mem_takeWhile_imp member
  refine ⟨inside, fun c first => ?_⟩
  obtain ⟨later, rfl⟩ := List.head?_eq_some_iff.mp first
  by_contra further
  rw [Bool.not_eq_false] at further
  rw [List.takeWhile_append_of_pos inside, List.takeWhile_cons_of_pos further] at length
  simp at length

/-- What a reading skips: blanks, or a comment up to the end of its line. -/
theorem read_blank {front back : List Char}
    (reads : read c (front ++ back) = (.blank, front.length)) :
    (∀ d ∈ c :: front, isBlank d = true) ∨
      ∃ words, c :: front = '/' :: '/' :: words ∧ '\n' ∉ words ∧
        (back = [] ∨ back.head? = some '\n') := by
  unfold read at reads
  split at reads
  next blank =>
    have run := takeWhile_front (Prod.mk.inj reads).2
    exact .inl (List.forall_mem_cons.mpr ⟨blank, run.1⟩)
  split at reads
  next comment =>
    obtain ⟨rfl, next⟩ := comment
    obtain ⟨inside, stops⟩ := takeWhile_front (Prod.mk.inj reads).2
    have ends : back = [] ∨ back.head? = some '\n' := by
      cases back with
      | nil => exact .inl rfl
      | cons d later =>
        right
        simpa using stops d rfl
    cases front with
    | nil =>
      -- the second slash would be left to the rest, which starts with a line break
      rw [List.nil_append] at next
      obtain rfl | line := ends
      · simp at next
      · rw [next] at line
        simp at line
    | cons d words =>
      obtain rfl : d = '/' := by simpa using next
      refine .inr ⟨words, rfl, fun member => ?_, ends⟩
      simpa using inside '\n' (List.mem_cons_of_mem _ member)
  -- all other readings give a token or fail
  split at reads
  · simp [readNumber] at reads
  split at reads
  · simp [readWord] at reads
  split at reads
  · unfold readString at reads
    split at reads <;> simp at reads
  · unfold readMark at reads
    split at reads <;> simp at reads

end Scan

namespace Scans

/-- In front of each token there is a gap. -/
theorem gap (scans : Scans offset text (token :: tokens)) :
    ∃ gap rest, text = gap ++ rest ∧ Gap rest gap ∧
      token.span.start = min (offset + Text.byteLength gap) Span.maxOffset ∧
      Scans (offset + Text.byteLength gap) rest (token :: tokens) := by
  generalize all : token :: tokens = list at scans
  induction scans with
  | nil =>
    obtain ⟨rfl, rfl⟩ := List.cons.inj all
    exact ⟨[], [], rfl, .none, rfl, .nil⟩
  | emit reads later =>
    obtain ⟨rfl, rfl⟩ := List.cons.inj all
    exact ⟨[], _, rfl, .none, rfl, .emit reads later⟩
  | @skip c front back _ _ reads _ ih =>
    obtain ⟨gap, rest, rfl, gap?, start, scans⟩ := ih all
    rw [Nat.add_assoc, ← Text.byteLength_append] at start scans
    refine ⟨(c :: front) ++ gap, rest, by simp, ?_, start, scans⟩
    obtain blanks | ⟨words, same, line, ends⟩ := Scan.read_blank reads
    · exact gap?.append blanks
    · obtain rfl := gap?.eq_nil ends
      rw [same, List.append_nil]
      exact .comment line ends

/-- Behind each token the scan goes on where the token ends. -/
theorem behind (scans : Scans offset text (token :: after)) (more : after ≠ []) :
    ∃ front back, text = front ++ back ∧
      token.span.stop = min (offset + Text.byteLength front) Span.maxOffset ∧
      Scans (offset + Text.byteLength front) back after := by
  generalize all : token :: after = list at scans
  induction scans with
  | nil => exact absurd (List.cons.inj all).2 more
  | @emit c front back _ _ _ reads later =>
    obtain ⟨rfl, rfl⟩ := List.cons.inj all
    exact ⟨c :: front, back, rfl, rfl, later⟩
  | @skip c front back _ _ reads _ ih =>
    obtain ⟨front', back', rfl, stop, scans⟩ := ih all
    rw [Nat.add_assoc, ← Text.byteLength_append] at stop scans
    exact ⟨(c :: front) ++ front', back', by simp, stop, scans⟩

/-- A token covers at least one character. -/
theorem start_lt_stop (scans : Scans offset text tokens)
    (bound : offset + Text.byteLength text ≤ Span.maxOffset) (member : token ∈ tokens)
    (solid : token.kind ≠ .endOfInput) : token.span.start < token.span.stop := by
  induction scans with
  | nil =>
    obtain rfl := List.mem_singleton.mp member
    exact absurd rfl solid
  | skip _ _ ih =>
    rw [← List.cons_append, Text.byteLength_append, ← Nat.add_assoc] at bound
    exact ih bound member
  | @emit c front back _ _ _ _ _ ih =>
    rw [← List.cons_append, Text.byteLength_append, ← Nat.add_assoc] at bound
    obtain rfl | later := List.mem_cons.mp member
    · have positive := c.utf8Size_pos
      simp only [Span.ofRange, Text.byteLength_cons] at bound ⊢
      omega
    · exact ih bound later

end Scans

/-- Where a row of tokens ends; one without tokens ends at the start of the text. -/
def Token.rowEnd (tokens : List Token) : Nat :=
  (tokens.getLast?.map fun token => token.span.stop).getD 0

/-- Between a row of tokens and the next token there is a gap. -/
theorem Scans.between (scans : Scans 0 text (before ++ token :: after))
    (bound : Text.byteLength text ≤ Span.maxOffset) :
    ∃ front gap rest, text = front ++ (gap ++ rest) ∧
      Text.byteLength front = Token.rowEnd before ∧
      Text.byteLength (front ++ gap) = token.span.start ∧ Gap rest gap := by
  obtain rfl | ⟨earlier, last, rfl⟩ := List.eq_nil_or_concat' before
  · obtain ⟨gap, rest, rfl, gap?, start, _⟩ := scans.gap
    rw [Text.byteLength_append] at bound
    refine ⟨[], gap, rest, rfl, rfl, ?_, gap?⟩
    rw [start, List.nil_append]
    omega
  · rw [List.append_assoc] at scans
    obtain ⟨front, back, rfl, _, resumed⟩ := scans.resumes
    obtain ⟨front', back', rfl, stop, resumed⟩ := resumed.behind (List.cons_ne_nil token after)
    obtain ⟨gap, rest, rfl, gap?, start, _⟩ := resumed.gap
    simp only [Text.byteLength_append] at bound
    refine ⟨front ++ front', gap, rest, by simp, ?_, ?_, gap?⟩
    · rw [Token.rowEnd, List.getLast?_concat, Option.map_some, Option.getD_some, stop,
        Text.byteLength_append]
      omega
    · rw [start, Text.byteLength_append, Text.byteLength_append]
      omega

/-- A slice is a part of the text, and no longer than it. -/
theorem Text.byteLength_slice_le (sliced : Text.slice start stop text = some part) :
    Text.byteLength part ≤ Text.byteLength text := by
  unfold Text.slice at sliced
  split at sliced
  · contradiction
  obtain ⟨⟨front, tail⟩, first, sliced⟩ := Option.bind_eq_some_iff.mp sliced
  obtain ⟨⟨part', back⟩, second, same⟩ := Option.bind_eq_some_iff.mp sliced
  obtain rfl := Option.some.inj same
  obtain ⟨rfl, _⟩ := Text.splitAtByte_eq_some first
  obtain ⟨rfl, _⟩ := Text.splitAtByte_eq_some second
  simp only [Text.byteLength_append]
  omega

theorem Span.ofRange_self (bound : offset ≤ Span.maxOffset) :
    Span.ofRange offset offset = .point offset := by
  rw [Span.ofRange, Nat.min_eq_left bound, Span.point]

/-- The last token of a text is the end of input, at its length. -/
theorem Scans.finish_eq (scans : Scans 0 text (front ++ [finish]))
    (bound : Text.byteLength text ≤ Span.maxOffset) :
    finish = ⟨.endOfInput, .point (Text.byteLength text)⟩ := by
  obtain ⟨front', same⟩ := scans.exists_end
  have last := List.singleton_inj.mp (List.append_inj_right' same rfl)
  rw [last, Nat.zero_add, Span.ofRange_self bound]

/-- The layout of a text. The end of input is behind all of it; every other token covers some
of its characters, and tokens do not overlap; between a token and those before it there is
only a gap; and the text of neighbouring tokens has these tokens alone, counted from the
start of the first. -/
theorem Token.scan_layout {source : String} {tokens : List Token}
    (bound : Text.byteLength source.toList ≤ Span.maxOffset)
    (scanned : Token.scan source = .ok tokens) :
    ∃ front, tokens = front ++ [⟨.endOfInput, .point (Text.byteLength source.toList)⟩] ∧
      (∀ token ∈ front, token.kind ≠ .endOfInput ∧ token.span.start < token.span.stop ∧
        ∃ part, token.span.slice? source.toList = some part) ∧
      front.Pairwise (fun first second => first.span.stop ≤ second.span.start) ∧
      (∀ before token after, tokens = before ++ token :: after →
        ∃ lead gap rest, source.toList = lead ++ (gap ++ rest) ∧
          Text.byteLength lead = Token.rowEnd before ∧
          Text.byteLength (lead ++ gap) = token.span.start ∧ Gap rest gap) ∧
      ∀ before segment after span, front = before ++ (segment ++ after) → Covers segment span →
        ∃ part moved, span.slice? source.toList = some part ∧
          Token.scan (String.ofList part) =
            .ok (moved ++ [⟨.endOfInput, .point (Text.byteLength part)⟩]) ∧
          moved.map (Token.mapSpan (Span.shiftUp span.start)) = segment := by
  have scans := Scan.tokensFrom_eq_ok_iff.mp scanned
  obtain ⟨front, rfl⟩ := scans.exists_end
  have inside := scans.inside
  refine ⟨front, by rw [← scans.finish_eq bound], fun token member => ⟨inside token member, ?_, ?_⟩,
    scans.ordered.left.2, ?_, ?_⟩
  · exact scans.start_lt_stop (by simpa using bound) (List.mem_append_left _ member)
      (inside token member)
  · obtain ⟨before, after, rfl⟩ := List.append_of_mem member
    rw [List.append_assoc, List.cons_append, ← List.singleton_append] at scans
    obtain ⟨part, _, _, sliced, _⟩ := scans.part (.single token) (by simp) bound
    exact ⟨part, sliced⟩
  · intro before token after same
    rw [same] at scans
    exact scans.between bound
  · rintro before segment after span rfl covers
    simp only [List.append_assoc] at scans
    obtain ⟨part, moved, finish, sliced, _, alone, _, same⟩ := scans.part covers (by simp) bound
    have short := Nat.le_trans (Text.byteLength_slice_le sliced) bound
    rw [alone.finish_eq short] at alone
    refine ⟨part, moved, sliced, ?_, same⟩
    rw [Token.scan, String.toList_ofList]
    exact Scan.tokensFrom_eq_ok_iff.mpr alone

/-- Dots that touch a name, and a comment up to the end: the dots and the name are read again
from their own text, and the comment is a gap. -/
theorem Token.scan_layout_dots :
    let source := "a..b // c"
    let dots : Token := ⟨.identifier "rangeExclusive", ⟨1, 3⟩⟩
    let front : List Token := [⟨.identifier "a", ⟨0, 1⟩⟩, dots, ⟨.identifier "b", ⟨3, 4⟩⟩]
    Token.scan source = .ok (front ++ [⟨.endOfInput, ⟨9, 9⟩⟩]) ∧
      (∃ lead gap rest, source.toList = lead ++ (gap ++ rest) ∧ Text.byteLength lead = 4 ∧
        Text.byteLength (lead ++ gap) = 9 ∧ Gap rest gap) ∧
      ∃ part moved, (Span.mk 1 4).slice? source.toList = some part ∧
        Token.scan (String.ofList part) =
          .ok (moved ++ [⟨.endOfInput, .point (Text.byteLength part)⟩]) ∧
        moved.map (Token.mapSpan (Span.shiftUp 1)) = [dots, ⟨.identifier "b", ⟨3, 4⟩⟩] := by
  intro source dots front
  have scanned : Token.scan source = .ok (front ++ [⟨.endOfInput, ⟨9, 9⟩⟩]) := by cbv
  obtain ⟨front', same, _, _, gaps, rows⟩ := Token.scan_layout (by decide) scanned
  obtain rfl : front = front' := List.append_inj_left' same rfl
  exact ⟨scanned, gaps front _ [] rfl, rows [_] [dots, _] [] ⟨1, 4⟩ rfl ⟨dots, _, rfl, rfl, rfl⟩⟩

end PixelScript
