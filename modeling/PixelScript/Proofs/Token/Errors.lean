import PixelScript.Proofs.Token.Rules

/-! Lexical errors. A scan goes from one longest text of a rule to the next, and it fails where
no rule has a text in front: at a quotation mark that is not closed, or at a character that
begins nothing. What it went through until then is a text of tokens by itself. -/
namespace PixelScript

namespace Scan

/-- `Arrives front rest`: a scan of `front ++ rest` by longest texts goes through `front` and
comes to `rest`. -/
inductive Arrives : List Char → List Char → Prop
  | here : Arrives [] rest
  | step (longest : Longest own (own ++ (front ++ rest))) (later : Arrives front rest) :
      Arrives (own ++ front) rest

/-- What a scan has gone through has tokens. -/
theorem Arrives.scans (arrives : Arrives front rest) (offset : Nat) :
    ∃ tokens, Scans offset front tokens := by
  induction arrives generalizing offset with
  | here => exact ⟨_, .nil⟩
  | step longest _ ih =>
    obtain ⟨c, own, lexeme, rfl, reads, fine⟩ := longest.read
    obtain ⟨tokens, later⟩ := ih (offset + Text.byteLength (c :: own))
    rw [← List.append_assoc] at reads
    have alone := read_cut reads (by simp) fine
    cases lexeme with
    | blank => exact ⟨tokens, .skip alone later⟩
    | token kind => exact ⟨_, .emit alone later⟩
    | failure cause => exact absurd rfl (fine cause)

/-- A scan fails with the error of the place that it comes to. -/
theorem Arrives.error (arrives : Arrives front rest) {offset : Nat} {error : LexicalError}
    (failed : tokensFrom (offset + Text.byteLength front) rest = .error error) :
    tokensFrom offset (front ++ rest) = .error error := by
  induction arrives generalizing offset with
  | here => exact failed
  | step longest _ ih =>
    obtain ⟨c, own, lexeme, rfl, reads, fine⟩ := longest.read
    rw [Text.byteLength_append, ← Nat.add_assoc] at failed
    have later := ih failed
    rw [List.append_assoc, List.cons_append, tokensFrom, reads]
    simp only [List.take_left', List.drop_left']
    cases lexeme with
    | blank => exact later
    | token kind =>
      dsimp only
      rw [later]
      rfl
    | failure cause => exact absurd rfl (fine cause)

/-- A scan of the text comes to a place where the reading fails. -/
def Breaks (text : List Char) : Prop :=
  ∃ front c cs cause taken, text = front ++ c :: cs ∧ Arrives front (c :: cs) ∧
    read c cs = (.failure cause, taken)

theorem Breaks.behind {own back : List Char}
    (reads : read c (own ++ back) = (lexeme, own.length))
    (fine : ∀ cause, lexeme ≠ .failure cause) (breaks : Breaks back) :
    Breaks (c :: (own ++ back)) := by
  obtain ⟨front, d, ds, cause, taken, rfl, arrives, fails⟩ := breaks
  refine ⟨(c :: own) ++ front, d, ds, cause, taken, by simp, ?_, fails⟩
  exact .step (by simpa using read_longest reads fine) arrives

theorem breaks_of_error (failed : tokensFrom offset text = .error error) : Breaks text := by
  fun_induction tokensFrom offset text with
  | case1 => contradiction
  | case2 offset c cs taken stop reads =>
    rename_i ih
    obtain ⟨own, back, rfl, rfl⟩ := read_front reads
    rw [List.drop_left] at ih failed
    exact (ih failed).behind reads (by simp)
  | case3 offset c cs taken stop kind reads =>
    rename_i ih
    obtain ⟨own, back, rfl, rfl⟩ := read_front reads
    rw [List.drop_left] at ih failed
    cases later : tokensFrom stop back with
    | ok tokens =>
      rw [later] at failed
      contradiction
    | error error' =>
      rw [later] at failed ih
      exact (ih failed).behind reads (by simp)
  | case4 offset c cs taken stop cause reads =>
    exact ⟨[], c, cs, cause, taken, rfl, .here, reads⟩

end Scan

open Scan

section Scanning

variable {source : String} {front rest : List Char}

theorem Scan.Arrives.scan_unclosed (arrives : Arrives front rest)
    (same : source.toList = front ++ rest) (unclosed : Unclosed rest) :
    Token.scan source = .error ⟨.unterminatedString,
      Span.ofRange (Text.byteLength front) (Text.byteLength source.toList)⟩ := by
  obtain ⟨cs, rfl, odd⟩ := unclosed
  rw [Token.scan, same]
  apply arrives.error
  rw [tokensFrom, read_unclosed ⟨cs, rfl, odd⟩]
  simp

theorem Scan.Arrives.scan_foreign (arrives : Arrives front (c :: cs))
    (same : source.toList = front ++ c :: cs) (foreign : Foreign c) :
    Token.scan source = .error ⟨.unrecognizedCharacter c,
      Span.ofRange (Text.byteLength front) (Text.byteLength front + c.utf8Size)⟩ := by
  rw [Token.scan, same]
  apply arrives.error
  rw [tokensFrom, read_foreign foreign]
  simp

theorem Scan.Arrives.scan_front (arrives : Arrives front rest) :
    ∃ tokens, Token.scan (String.ofList front) = .ok tokens := by
  obtain ⟨tokens, scans⟩ := arrives.scans 0
  refine ⟨tokens, ?_⟩
  rw [Token.scan, String.toList_ofList]
  exact tokensFrom_eq_ok_iff.mpr scans

end Scanning

/-- Lexical errors are exact. A scan fails if and only if it arrives, by longest texts of the
rules, at a quotation mark that is not closed or at a character that begins nothing. The error
of the first has the span from there to the end of the source, and that of the second the span
of the character; and what stands before is a text of tokens. -/
theorem Token.scan_error_exact (source : String) :
    ((∃ error, Token.scan source = .error error) ↔
      ∃ front rest, source.toList = front ++ rest ∧ Arrives front rest ∧
        (Unclosed rest ∨ ∃ c cs, rest = c :: cs ∧ Foreign c)) ∧
    ∀ front rest, source.toList = front ++ rest → Arrives front rest →
      (Unclosed rest → Token.scan source = .error ⟨.unterminatedString,
        Span.ofRange (Text.byteLength front) (Text.byteLength source.toList)⟩) ∧
      (∀ c cs, rest = c :: cs → Foreign c →
        Token.scan source = .error ⟨.unrecognizedCharacter c,
          Span.ofRange (Text.byteLength front) (Text.byteLength front + c.utf8Size)⟩) ∧
      ∃ tokens, Token.scan (String.ofList front) = .ok tokens := by
  refine ⟨⟨?_, ?_⟩, ?_⟩
  · rintro ⟨error, failed⟩
    obtain ⟨front, c, cs, cause, taken, same, arrives, fails⟩ := breaks_of_error failed
    refine ⟨front, c :: cs, same, arrives, ?_⟩
    rcases read_failure fails with ⟨-, -, unclosed⟩ | ⟨-, -, foreign⟩
    · exact .inl unclosed
    · exact .inr ⟨c, cs, rfl, foreign⟩
  · rintro ⟨front, rest, same, arrives, unclosed | ⟨c, cs, rfl, foreign⟩⟩
    · exact ⟨_, arrives.scan_unclosed same unclosed⟩
    · exact ⟨_, arrives.scan_foreign same foreign⟩
  · intro front rest same arrives
    refine ⟨arrives.scan_unclosed same, ?_, arrives.scan_front⟩
    rintro c cs rfl foreign
    exact arrives.scan_foreign same foreign

/-- A literal whose only other quotation mark is escaped, behind a name and a blank. -/
theorem Token.scan_error_exact_escaped :
    let source := String.ofList ['a', ' ', '"', 'b', '\\', '"']
    Arrives ['a', ' '] ['"', 'b', '\\', '"'] ∧ Unclosed ['"', 'b', '\\', '"'] ∧
      Token.scan source = .error ⟨.unterminatedString, ⟨2, 6⟩⟩ ∧
      ∃ tokens, Token.scan (String.ofList ['a', ' ']) = .ok tokens := by
  intro source
  have arrives : Arrives ['a', ' '] ['"', 'b', '\\', '"'] := by
    have name : read 'a' ([] ++ [' ', '"', 'b', '\\', '"']) = (.token (.identifier "a"), 0) := rfl
    have blank : read ' ' ([] ++ ['"', 'b', '\\', '"']) = (.blank, 0) := rfl
    exact .step (read_longest name (by simp)) (.step (read_longest blank (by simp)) .here)
  have unclosed : Unclosed ['"', 'b', '\\', '"'] := closingQuote_eq_none_iff.mp rfl
  obtain ⟨-, located⟩ := Token.scan_error_exact source
  obtain ⟨error, -, before⟩ := located ['a', ' '] _ String.toList_ofList arrives
  refine ⟨arrives, unclosed, ?_, before⟩
  rw [error unclosed, String.toList_ofList]
  rfl

end PixelScript
