import PixelScript.Proofs.Syntax.Extent
import PixelScript.Proofs.Syntax.Respan
import PixelScript.Proofs.Token.Reading

/-! Scanning part of a text. The tokens that stand next to each other in a text are the
tokens of the text between them, at offsets that are counted from the first of them. -/
namespace PixelScript

/-- `Scans offset text tokens`: the readings of a text that starts at an offset, one after
another, without a failure. -/
inductive Scans : Nat → List Char → List Token → Prop
  | nil : Scans offset [] [⟨.endOfInput, Span.ofRange offset offset⟩]
  | skip (reads : Scan.read c (front ++ back) = (.blank, front.length))
      (later : Scans (offset + Text.byteLength (c :: front)) back tokens) :
      Scans offset (c :: (front ++ back)) tokens
  | emit (reads : Scan.read c (front ++ back) = (.token kind, front.length))
      (later : Scans (offset + Text.byteLength (c :: front)) back tokens) :
      Scans offset (c :: (front ++ back))
        (⟨kind, Span.ofRange offset (offset + Text.byteLength (c :: front))⟩ :: tokens)

/-- What a reading takes stands in front of the text. -/
theorem Scan.read_front (reads : Scan.read c cs = (lexeme, taken)) :
    ∃ front back, cs = front ++ back ∧ taken = front.length := by
  have bound := Scan.read_le c cs
  rw [reads] at bound
  exact ⟨cs.take taken, cs.drop taken, (List.take_append_drop taken cs).symm,
    (List.length_take_of_le bound).symm⟩

theorem Scan.tokensFrom_eq_ok_iff :
    Scan.tokensFrom offset text = .ok tokens ↔ Scans offset text tokens := by
  constructor
  · intro scanned
    fun_induction Scan.tokensFrom offset text generalizing tokens with
    | case1 =>
      obtain rfl := Except.ok.inj scanned
      exact .nil
    | case2 offset c cs taken stop reads =>
      rename_i ih
      obtain ⟨front, back, rfl, rfl⟩ := read_front reads
      have later := ih scanned
      simp only [stop, List.take_left', List.drop_left'] at later
      exact .skip reads later
    | case3 offset c cs taken stop kind reads =>
      rename_i ih
      obtain ⟨front, back, rfl, rfl⟩ := read_front reads
      cases found : tokensFrom stop ((front ++ back).drop front.length) with
      | error error =>
        rw [found] at scanned
        contradiction
      | ok more =>
        rw [found] at scanned
        obtain rfl := Except.ok.inj scanned
        have later := ih found
        simp only [stop, List.take_left', List.drop_left'] at later ⊢
        exact .emit reads later
    | case4 => contradiction
  · intro scans
    induction scans with
    | nil => rw [Scan.tokensFrom]
    | skip reads _ ih =>
      rw [Scan.tokensFrom, reads]
      simpa using ih
    | emit reads _ ih =>
      rw [Scan.tokensFrom, reads]
      simp only [List.take_left', List.drop_left']
      rw [ih]
      rfl

namespace Scans

/-- The end of input is the last token of a text, behind all of it. -/
theorem exists_end (scans : Scans offset text tokens) :
    ∃ front, tokens = front ++ [⟨.endOfInput, Span.ofRange (offset + Text.byteLength text)
      (offset + Text.byteLength text)⟩] := by
  induction scans with
  | nil => exact ⟨[], rfl⟩
  | skip _ _ ih =>
    obtain ⟨front, rfl⟩ := ih
    exact ⟨front, by simp [Nat.add_assoc]⟩
  | emit _ _ ih =>
    obtain ⟨front, rfl⟩ := ih
    exact ⟨_ :: front, by simp [Nat.add_assoc]; rfl⟩

theorem le_start (scans : Scans offset text tokens) (member : token ∈ tokens) :
    min offset Span.maxOffset ≤ token.span.start := by
  induction scans with
  | nil =>
    obtain rfl := List.mem_singleton.mp member
    exact Nat.le_refl _
  | skip _ _ ih =>
    have := ih member
    omega
  | emit _ _ ih =>
    obtain rfl | later := List.mem_cons.mp member
    · exact Nat.le_refl _
    · have := ih later
      omega

/-- Tokens follow one another in the text. -/
theorem ordered (scans : Scans offset text tokens) : Ordered tokens := by
  induction scans with
  | nil => exact ⟨fun token member => by simp_all [Span.ofRange], List.pairwise_singleton _ _⟩
  | skip _ _ ih => exact ih
  | emit _ later ih =>
    refine ⟨fun token member => ?_, List.pairwise_cons.mpr ⟨fun token member => ?_, ih.2⟩⟩
    · obtain rfl | member := List.mem_cons.mp member
      · simp only [Span.ofRange]
        omega
      · exact ih.1 token member
    · exact later.le_start member

/-- A text has a place where scanning gives a token and those behind it. -/
def Resumes (offset : Nat) (text : List Char) (token : Token) (after : List Token) : Prop :=
  ∃ front back, text = front ++ back ∧
    token.span.start = min (offset + Text.byteLength front) Span.maxOffset ∧
    Scans (offset + Text.byteLength front) back (token :: after)

theorem Resumes.behind (resumes : Resumes (offset + Text.byteLength lead) text token after) :
    Resumes offset (lead ++ text) token after := by
  obtain ⟨front, back, rfl, start, scans⟩ := resumes
  rw [Nat.add_assoc, ← Text.byteLength_append] at start scans
  exact ⟨lead ++ front, back, (List.append_assoc ..).symm, start, scans⟩

/-- Scanning can start again at any token. -/
theorem resumes (scans : Scans offset text (before ++ token :: after)) :
    Resumes offset text token after := by
  generalize all : before ++ token :: after = tokens at scans
  induction scans generalizing before with
  | @nil offset =>
    cases before with
    | nil =>
      obtain ⟨rfl, rfl⟩ := List.cons.inj all
      exact ⟨[], [], rfl, rfl, .nil⟩
    | cons => simp at all
  | skip _ _ ih => exact (ih all).behind
  | emit reads later ih =>
    cases before with
    | nil =>
      obtain ⟨rfl, rfl⟩ := List.cons.inj all
      exact ⟨[], _, rfl, rfl, .emit reads later⟩
    | cons => exact (ih (List.cons.inj all).2).behind

/-- Scanning a text that is cut behind a token gives the tokens up to there. -/
theorem cut {segment after : List Token} (solid : segment ≠ []) (more : after ≠ [])
    (scans : Scans offset text (segment ++ after)) :
    ∃ part back last finish, text = part ++ back ∧ segment.getLast? = some last ∧
      last.span.stop = min (offset + Text.byteLength part) Span.maxOffset ∧
      finish.kind = .endOfInput ∧ Scans offset part (segment ++ [finish]) := by
  generalize all : segment ++ after = tokens at scans
  induction scans generalizing segment with
  | nil =>
    obtain ⟨none, _⟩ | ⟨_, none⟩ := List.append_eq_singleton_iff.mp all
    · exact absurd none solid
    · exact absurd none more
  | @skip c front back _ _ reads _ ih =>
    obtain ⟨part, back, last, finish, rfl, isLast, stop, isEnd, scans⟩ := ih solid all
    rw [← List.append_assoc] at reads
    have reads' := Scan.read_cut reads (by simp) (by simp)
    refine ⟨(c :: front) ++ part, back, last, finish, by simp, isLast, ?_, isEnd,
      .skip reads' scans⟩
    rw [stop, Text.byteLength_append, Nat.add_assoc]
  | @emit c front back kind _ _ reads _ ih =>
    obtain ⟨first, segment, rfl⟩ := List.exists_cons_of_ne_nil solid
    obtain ⟨rfl, same⟩ := List.cons.inj all
    by_cases alone : segment = []
    · subst alone
      have reads' := Scan.read_cut reads (Nat.le_refl _) (by simp)
      exact ⟨c :: front, back, _, _, rfl, rfl, rfl, rfl,
        by simpa using emit (by simpa using reads') nil⟩
    · obtain ⟨part, back, last, finish, rfl, isLast, stop, isEnd, scans⟩ := ih alone same
      rw [← List.append_assoc] at reads
      have reads' := Scan.read_cut reads (by simp) (by simp)
      refine ⟨(c :: front) ++ part, back, last, finish, by simp, ?_, ?_, isEnd, .emit reads' scans⟩
      · rw [List.getLast?_cons_of_ne_nil alone, isLast]
      · rw [stop, Text.byteLength_append, Nat.add_assoc]

/-- The same text at an earlier offset has the same tokens, each that much earlier. -/
theorem earlier (scans : Scans offset text tokens) (same : offset = distance + offset')
    (bound : offset + Text.byteLength text ≤ Span.maxOffset) :
    ∃ tokens', Scans offset' text tokens' ∧
      tokens'.map (Token.mapSpan (Span.shiftUp distance)) = tokens := by
  induction scans generalizing offset' with
  | nil =>
    subst same
    refine ⟨_, .nil, ?_⟩
    rw [List.map_singleton, Token.mapSpan,
      Span.shiftUp_ofRange (Nat.le_refl _) (by simpa using bound)]
  | skip reads _ ih =>
    subst same
    rw [← List.cons_append, Text.byteLength_append, ← Nat.add_assoc] at bound
    obtain ⟨tokens, scans, rfl⟩ := ih (Nat.add_assoc ..) bound
    exact ⟨tokens, .skip reads scans, rfl⟩
  | emit reads _ ih =>
    subst same
    rw [← List.cons_append, Text.byteLength_append, ← Nat.add_assoc] at bound
    obtain ⟨tokens, scans, rfl⟩ := ih (Nat.add_assoc ..) bound
    refine ⟨_, .emit reads scans, ?_⟩
    rw [List.map_cons, Token.mapSpan, Span.shiftUp_ofRange (Nat.le_add_right ..) (by omega),
      Nat.add_assoc]

end Scans

end PixelScript
