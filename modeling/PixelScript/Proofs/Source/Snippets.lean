import PixelScript.Diagnostic
import PixelScript.Proofs.Source.Lines

/-! What a diagnostic shows. The line around the start of a span stands under its position, and
the carets stand under characters of the span, as far as they are on that line and shown. -/
namespace PixelScript

namespace Diagnostic

/-- The rows of a snippet: the place, a blank margin, the line, and carets under it. -/
def rows (path : String) (line column : Nat) (shown : List Char) (carets : Nat) : List String :=
  let number := toString line
  let margin := repeated ' ' number.length
  [margin ++ "--> " ++ path ++ ":" ++ number ++ ":" ++ toString column,
    margin ++ " |",
    number ++ " | " ++ String.ofList shown,
    margin ++ " | " ++ repeated ' ' (column - 1) ++ repeated '^' carets]

/-- `Points before part behind line column shown carets`: a row of carets that points at a part
of a text, between what stands before and behind it. -/
structure Points (before part behind : List Char) (line column : Nat) (shown : List Char)
    (carets : Nat) : Prop where
  /-- The line that the part starts on, less the carriage returns at its end. -/
  line_shown : ∃ lead start finish rest returns,
    before = lead ++ start ∧ (lead = [] ∨ lead.getLast? = some '\n') ∧ '\n' ∉ start ∧
      part ++ behind = finish ++ rest ∧ '\n' ∉ finish ∧ (rest = [] ∨ rest.head? = some '\n') ∧
      start ++ finish = shown ++ List.replicate returns '\r' ∧
      line = lead.count '\n' + 1 ∧ column = start.length + 1
  trimmed : shown.getLast? ≠ some '\r'
  narrow : carets ≤ max 1 (part.takeWhile (· ≠ '\n')).length
  /-- Carets behind the first stand under characters of the part. -/
  under : ∀ step, 0 < step → step < carets →
    ∃ c, part[step]? = some c ∧ shown[column - 1 + step]? = some c
  inside : carets = 1 ∨ column - 1 + carets ≤ shown.length
  /-- A part that is shown as a whole has a caret for each character. -/
  whole : part ≠ [] → part <+: shown.drop (column - 1) → carets = part.length

/-- Rows of a snippet one below the other. -/
theorem join_rows (path : String) (line column : Nat) (shown : List Char) (carets : Nat) :
    let number := toString line
    let margin := repeated ' ' number.length
    String.join ((rows path line column shown carets).map (· ++ "\n")) =
      margin ++ "--> " ++ path ++ ":" ++ number ++ ":" ++ toString column ++ "\n" ++
        margin ++ (" |" ++ "\n") ++
        number ++ " | " ++ String.ofList shown ++ "\n" ++
        margin ++ " | " ++ repeated ' ' (column - 1) ++ repeated '^' carets ++ "\n" := by
  intro number margin
  simp only [rows, List.map_cons, List.map_nil, String.join_cons, String.join_nil,
    String.append_assoc, String.append_empty, number, margin]

theorem snippet_eq_join (source : List Char) (path : String) (span : Span) :
    snippet source path span = String.join ((rows path (Position.ofOffset source span.start).line
      (Position.ofOffset source span.start).column
      (lineText source (Position.ofOffset source span.start).line)
      (caretWidth source span (Position.ofOffset source span.start).column
        (lineText source (Position.ofOffset source span.start).line))).map (· ++ "\n")) := by
  have bar : " |" ++ "\n" = (" |\n" : String) := by rfl
  rw [join_rows, bar]
  unfold snippet
  dsimp only

/-- A line without the carriage returns at its end. -/
def withoutReturns (line : List Char) : List Char :=
  (line.reverse.dropWhile (· = '\r')).reverse

theorem exists_returns (line : List Char) :
    ∃ returns, line = withoutReturns line ++ List.replicate returns '\r' := by
  refine ⟨(line.reverse.takeWhile (· = '\r')).length, ?_⟩
  have run : (line.reverse.takeWhile (· = '\r')).reverse =
      List.replicate (line.reverse.takeWhile (· = '\r')).length '\r' := by
    refine List.eq_replicate_iff.mpr ⟨List.length_reverse, fun c member => ?_⟩
    simpa using List.mem_takeWhile_imp (List.mem_reverse.mp member)
  rw [← run, withoutReturns, ← List.reverse_append, List.takeWhile_append_dropWhile,
    List.reverse_reverse]

theorem getLast?_withoutReturns (line : List Char) :
    (withoutReturns line).getLast? ≠ some '\r' := by
  intro last
  rw [withoutReturns, List.getLast?_reverse] at last
  have other := List.head?_dropWhile_not (fun c => decide (c = '\r')) line.reverse
  rw [last] at other
  simp at other

theorem newline_not_mem_takeWhile (text : List Char) : '\n' ∉ text.takeWhile (· ≠ '\n') := by
  intro member
  simpa using List.mem_takeWhile_imp member

theorem head?_dropWhile_newline (text : List Char) :
    text.dropWhile (· ≠ '\n') = [] ∨ (text.dropWhile (· ≠ '\n')).head? = some '\n' := by
  have stops := List.head?_dropWhile_not (fun c => decide (c ≠ '\n')) text
  cases dropped : text.dropWhile (· ≠ '\n') with
  | nil => exact .inl rfl
  | cons c rest =>
    right
    rw [dropped] at stops
    simpa using stops

/-- The line of a boundary, shown: what stands before the boundary on it, and what follows up to
the next newline, without carriage returns at the end. -/
theorem lineText_ended {earlier : List (List Char)} {start : List Char}
    (closed : ∀ whole ∈ earlier, '\n' ∉ whole) (opened : '\n' ∉ start) (back : List Char) :
    lineText (Text.ended earlier ++ start ++ back) (earlier.length + 1) =
      withoutReturns (start ++ back.takeWhile (· ≠ '\n')) := by
  obtain ⟨later, split⟩ := Text.lines_split closed opened back
  rw [lineText, split]
  simp [withoutReturns]

theorem coveredWidth_eq (before part behind : List Char) :
    coveredWidth (before ++ (part ++ behind))
      ⟨Text.byteLength before, Text.byteLength (before ++ part)⟩ =
      (part.takeWhile (· ≠ '\n')).length := by
  rw [coveredWidth, Span.slice?, Text.byteLength_append, Text.slice_append]

/-- The carets under a part of a line, as far as the line is shown. -/
theorem points {lead start : List Char} (leads : lead = [] ∨ lead.getLast? = some '\n')
    (opened : '\n' ∉ start) (part behind : List Char) :
    let shown := withoutReturns (start ++ (part ++ behind).takeWhile (· ≠ '\n'))
    Points (lead ++ start) part behind (lead.count '\n' + 1) (start.length + 1) shown
      (max 1 (min (part.takeWhile (· ≠ '\n')).length (shown.length - start.length))) := by
  have reaches : part.takeWhile (· ≠ '\n') <+: (part ++ behind).takeWhile (· ≠ '\n') := by
    rw [List.takeWhile_append]
    split
    next whole =>
      rw [List.IsPrefix.eq_of_length (List.takeWhile_prefix _) whole]
      exact List.prefix_append _ _
    next => exact List.prefix_refl _
  have closed := newline_not_mem_takeWhile (part ++ behind)
  have split : part ++ behind = (part ++ behind).takeWhile (· ≠ '\n') ++
      (part ++ behind).dropWhile (· ≠ '\n') := List.takeWhile_append_dropWhile.symm
  generalize (part ++ behind).takeWhile (· ≠ '\n') = finish at reaches closed split ⊢
  obtain ⟨returns, line⟩ := exists_returns (start ++ finish)
  have trimmed := getLast?_withoutReturns (start ++ finish)
  generalize withoutReturns (start ++ finish) = shown at line trimmed ⊢
  constructor
  case line_shown =>
    exact ⟨lead, start, finish, _, returns, rfl, leads, opened, split, closed,
      head?_dropWhile_newline _, line, rfl, rfl⟩
  case trimmed => exact trimmed
  case narrow => omega
  case inside =>
    rw [Nat.add_sub_cancel]
    omega
  case under =>
    intro step positive small
    have covered : step < (part.takeWhile (· ≠ '\n')).length := by omega
    have visible : start.length + step < shown.length := by omega
    refine ⟨_, List.prefix_iff_getElem?.mp (List.takeWhile_prefix _) step covered, ?_⟩
    have there : (start ++ finish)[start.length + step]? = shown[start.length + step]? := by
      rw [line, List.getElem?_append_left visible]
    rw [Nat.add_sub_cancel, ← there, List.getElem?_append_right (Nat.le_add_right ..),
      Nat.add_sub_cancel_left]
    exact List.prefix_iff_getElem?.mp reaches step covered
  case whole =>
    intro solid within
    rw [Nat.add_sub_cancel] at within
    have absent : '\n' ∉ part := by
      intro member
      have onLine : '\n' ∈ start ++ finish := by
        rw [line]
        exact List.mem_append_left _ (List.mem_of_mem_drop (within.subset member))
      rcases List.mem_append.mp onLine with first | second
      · exact opened first
      · exact closed second
    have all : part.takeWhile (· ≠ '\n') = part := by
      refine List.takeWhile_eq_self_iff.mpr fun c member => decide_eq_true ?_
      rintro rfl
      exact absent member
    have fits := within.length_le
    rw [List.length_drop] at fits
    have positive := List.length_pos_iff.mpr solid
    rw [all]
    omega

end Diagnostic

/-- A diagnostic points where it says. Whatever the span of an error, its report is the message
and a snippet with at least one caret. If the span is that of a part of the source, the snippet
shows the line that the part starts on, under its position, and the carets point at the part. -/
theorem ScriptError.render_points (error : ScriptError) (source path : String) (span : Span)
    (located : error.span? = some span) :
    ∃ line column shown carets,
      error.render source path =
        String.join ((("error: " ++ error.message) ::
          Diagnostic.rows path line column shown carets).map (· ++ "\n")) ∧
      1 ≤ line ∧ 1 ≤ column ∧ 1 ≤ carets ∧
      ∀ before part behind, source.toList = before ++ (part ++ behind) →
        span = ⟨Text.byteLength before, Text.byteLength (before ++ part)⟩ →
        Diagnostic.Points before part behind line column shown carets := by
  let position := Position.ofOffset source.toList span.start
  let shown := Diagnostic.lineText source.toList position.line
  refine ⟨position.line, position.column, shown,
    Diagnostic.caretWidth source.toList span position.column shown, ?_, Nat.succ_pos _,
    Nat.succ_pos _, Nat.le_max_left 1 _, ?_⟩
  · rw [render, located, List.map_cons, String.join_cons, ← Diagnostic.snippet_eq_join]
  · rintro before part behind same rfl
    obtain ⟨earlier, start, rfl, closed, opened⟩ := Text.exists_ended before
    have here : position = ⟨earlier.length + 1, start.length + 1⟩ := by
      dsimp only [position]
      rw [same, Position.ofOffset_boundary, Position.after_ended closed opened]
    have line : shown = Diagnostic.withoutReturns
        (start ++ (part ++ behind).takeWhile (· ≠ '\n')) := by
      dsimp only [shown]
      rw [here, same, Diagnostic.lineText_ended closed opened]
    rw [Diagnostic.caretWidth, same, Diagnostic.coveredWidth_eq, here, line,
      Nat.add_sub_cancel, ← Text.count_ended closed]
    exact Diagnostic.points (Text.getLast?_ended earlier) opened part behind

/-- A span behind a character of two bytes that goes on to the next line, over a carriage
return. -/
theorem ScriptError.render_points_crossing :
    let error := ScriptError.failed ⟨.undefinedVariable "nope", some ⟨6, 13⟩⟩
    error.span? = some ⟨6, 13⟩ ∧
      ∃ line column shown carets,
        error.render "é = (nope\r\n1)" "demo.kn" =
          String.join ((("error: " ++ error.message) ::
            Diagnostic.rows "demo.kn" line column shown carets).map (· ++ "\n")) ∧
        1 ≤ line ∧ 1 ≤ column ∧ 1 ≤ carets ∧
        Diagnostic.Points ['é', ' ', '=', ' ', '('] ['n', 'o', 'p', 'e', '\r', '\n', '1'] [')']
          line column shown carets := by
  intro error
  obtain ⟨line, column, shown, carets, drawn, lines, columns, positive, points⟩ :=
    render_points error "é = (nope\r\n1)" "demo.kn" ⟨6, 13⟩ rfl
  exact ⟨rfl, line, column, shown, carets, drawn, lines, columns, positive,
    points _ _ _ (by decide) (by decide)⟩

end PixelScript
