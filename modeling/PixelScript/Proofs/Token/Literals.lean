import PixelScript.Proofs.Token.Rules

/-! String literals. Every text can be written between quotation marks, in as many ways as its
characters have, and each way is read back as this text; the other way round, what a string
token covers writes the token's text. Finding the mark that closes a literal and taking the
backslashes out of it are two walks over the same characters, and they agree on which
backslash takes which character. -/
namespace PixelScript

namespace Scan

/-- The ways to write a character inside a string literal. Marks and backslashes need a
backslash; the letters that name a newline and a tab behind a backslash have none. -/
def writings (c : Char) : List (List Char) :=
  if c = '"' ∨ c = '\\' then [['\\', c]]
  else if c = '\n' then [[c], ['\\', c], ['\\', 'n']]
  else if c = '\t' then [[c], ['\\', c], ['\\', 't']]
  else if c = 'n' ∨ c = 't' then [[c]]
  else [[c], ['\\', c]]

/-- `Writes text body`: the inside of a literal that writes a text character by character. -/
inductive Writes : List Char → List Char → Prop
  | nil : Writes [] []
  | cons (way : part ∈ writings c) (more : Writes text body) : Writes (c :: text) (part ++ body)

/-- The character that a backslash and `c` stand for. -/
def escaped (c : Char) : Char :=
  if c = 'n' then '\n' else if c = 't' then '\t' else c

variable {c : Char} {text body part : List Char}

/-- A character is written by itself, unless it is a mark or a backslash, or by a backslash and
a character that stands for it. -/
theorem mem_writings : part ∈ writings c ↔
    (part = [c] ∧ c ≠ '"' ∧ c ≠ '\\') ∨ ∃ d, part = ['\\', d] ∧ escaped d = c := by
  grind [writings, escaped]

theorem unescape_plain (plain : c ≠ '\\') (cs : List Char) :
    unescape (c :: cs) = c :: unescape cs := by
  rw [unescape]
  · exact fun first _ => plain first
  · exact fun _ _ first _ => plain first

theorem unescape_escaped (c : Char) (cs : List Char) :
    unescape ('\\' :: c :: cs) = escaped c :: unescape cs := rfl

/-- One written character is part of a literal, and is read back from it. -/
theorem quoted_part (way : part ∈ writings c) (inside : Quoted body) :
    Quoted (part ++ body) ∧ unescape (part ++ body) = c :: unescape body := by
  obtain ⟨rfl, mark, backslash⟩ | ⟨d, rfl, rfl⟩ := mem_writings.mp way
  · exact ⟨.plain mark backslash inside, unescape_plain backslash body⟩
  · exact ⟨.escaped inside, unescape_escaped d body⟩

/-- A literal writes a text exactly if no mark of it stands alone, no backslash is left over,
and the text is what taking out the backslashes gives. -/
theorem writes_iff : Writes text body ↔ Quoted body ∧ unescape body = text := by
  constructor
  · intro writes
    induction writes with
    | nil => exact ⟨.nil, rfl⟩
    | cons way _ ih =>
      obtain ⟨inside, same⟩ := ih
      rw [← same]
      exact quoted_part way inside
  · rintro ⟨inside, rfl⟩
    induction inside with
    | nil => exact .nil
    | @plain c body mark backslash _ ih =>
      rw [unescape_plain backslash]
      exact .cons (mem_writings.mpr (.inl ⟨rfl, mark, backslash⟩)) ih
    | @escaped body d _ ih =>
      exact .cons (mem_writings.mpr (.inr ⟨d, rfl, rfl⟩)) ih

/-- A literal is read whole, whatever stands behind it. -/
theorem Writes.read (writes : Writes text body) (later : List Char) :
    Scan.read '"' ((body ++ ['"']) ++ later) =
      (.token (.string (String.ofList text)), (body ++ ['"']).length) := by
  obtain ⟨inside, same⟩ := writes_iff.mp writes
  have closes := closingQuote_quoted inside later
  rw [read_quote, readString, List.append_assoc, List.singleton_append, closes]
  simp [same]

/-- Only quotation marks give string tokens, and what they enclose writes the token's text. -/
theorem Reads.literal {own : List Char} {value : String} (reads : Reads own (.string value)) :
    ∃ body, own = '"' :: (body ++ ['"']) ∧ Writes value.toList body := by
  obtain ⟨c, front, rfl, reads⟩ := reads
  unfold Scan.read at reads
  split at reads
  · simp at reads
  split at reads
  · simp at reads
  split at reads
  · simp [readNumber] at reads
  split at reads
  · unfold readWord at reads
    dsimp only at reads
    split at reads <;> simp at reads
  split at reads
  next quote =>
    subst quote
    unfold readString at reads
    split at reads
    next length closes =>
      obtain ⟨body, later, rfl, rfl, inside⟩ := quoted_of_closingQuote closes
      simp only [List.take_left', Prod.mk.injEq, Lexeme.token.injEq, TokenKind.string.injEq,
        List.length_append, List.length_cons] at reads
      obtain ⟨rfl, all⟩ := reads
      obtain rfl : later = [] := List.eq_nil_of_length_eq_zero (by omega)
      refine ⟨body, rfl, writes_iff.mpr ⟨inside, ?_⟩⟩
      rw [String.toList_ofList]
    next => simp at reads
  next =>
    unfold readMark at reads
    split at reads
    next spelling kind found =>
      have none : ∀ entry ∈ spellings, entry.2.toClass ≠ .string := by decide
      have other := none _ (List.mem_of_find?_eq_some found)
      have same := (Lexeme.token.inj (Prod.mk.inj reads).1)
      exact absurd (congrArg TokenKind.toClass same) other
    next => simp at reads

end Scan

open Scan

/-- Each token but the end of input covers characters of its own. -/
theorem Scans.covers {token : Token} (scans : Scans offset text tokens) (member : token ∈ tokens)
    (solid : token.kind ≠ .endOfInput) :
    ∃ lead own rest, text = lead ++ (own ++ rest) ∧ Reads own token.kind ∧
      token.span = Span.ofRange (offset + Text.byteLength lead)
        (offset + Text.byteLength (lead ++ own)) := by
  induction scans with
  | nil =>
    obtain rfl := List.mem_singleton.mp member
    exact absurd rfl solid
  | @skip c front back _ _ _ _ ih =>
    obtain ⟨lead, own, rest, rfl, reads, span⟩ := ih member
    refine ⟨(c :: front) ++ lead, own, rest, by simp, reads, ?_⟩
    rw [span]
    simp only [Text.byteLength_append, Nat.add_assoc]
  | @emit c front back _ _ _ reads _ ih =>
    obtain rfl | later := List.mem_cons.mp member
    · exact ⟨[], c :: front, back, by simp, .of_front reads, by simp⟩
    · obtain ⟨lead, own, rest, rfl, reads, span⟩ := ih later
      refine ⟨(c :: front) ++ lead, own, rest, by simp, reads, ?_⟩
      rw [span]
      simp only [Text.byteLength_append, Nat.add_assoc]

/-- String literals are exact. Whatever way a text is written in, the literal is one string
token of this text that covers all of it; and what a string token covers is such a literal of
its text. Spans hold offsets up to the largest one only; in a source that they can measure,
the characters that a token covers are the slice of its span. -/
theorem Token.scan_literal :
    (∀ (text : String) (body : List Char), Writes text.toList body →
      let literal := '"' :: (body ++ ['"'])
      let size := Text.byteLength literal
      Token.scan (String.ofList literal) =
        .ok [⟨.string text, Span.ofRange 0 size⟩, ⟨.endOfInput, Span.ofRange size size⟩]) ∧
    ∀ (source : String) (tokens : List Token) (token : Token) (text : String),
      Token.scan source = .ok tokens → token ∈ tokens → token.kind = .string text →
      ∃ lead body rest, Writes text.toList body ∧
        source.toList = lead ++ (('"' :: (body ++ ['"'])) ++ rest) ∧
        token.span = Span.ofRange (Text.byteLength lead)
          (Text.byteLength (lead ++ '"' :: (body ++ ['"']))) ∧
        (Text.byteLength source.toList ≤ Span.maxOffset →
          token.span.slice? source.toList = some ('"' :: (body ++ ['"']))) := by
  constructor
  · intro text body writes literal size
    have reads := writes.read []
    rw [String.ofList_toList] at reads
    have scans : Scans 0 (_ :: ((body ++ [_]) ++ [])) _ := .emit reads .nil
    rw [List.append_nil, Nat.zero_add] at scans
    rw [Token.scan, String.toList_ofList]
    exact tokensFrom_eq_ok_iff.mpr scans
  · intro source tokens token text scanned member kind
    have scans := tokensFrom_eq_ok_iff.mp scanned
    obtain ⟨lead, own, rest, same, reads, span⟩ := scans.covers member (by simp [kind])
    rw [kind] at reads
    obtain ⟨body, rfl, writes⟩ := reads.literal
    rw [Nat.zero_add, Nat.zero_add] at span
    refine ⟨lead, body, rest, writes, same, span, fun bound => ?_⟩
    rw [same, Text.byteLength_append, Text.byteLength_append] at bound
    rw [Text.byteLength_append] at span
    rw [same, Span.slice?, span, Span.ofRange, Nat.min_eq_left (by omega),
      Nat.min_eq_left (by omega)]
    exact Text.slice_append lead ('"' :: (body ++ ['"'])) rest

/-- A literal that writes a letter by itself, a mark and a backslash behind backslashes, and a
newline by its letter; the two slashes are no comment. -/
theorem Token.scan_literal_marks :
    let text := String.ofList ['n', '"', '/', '/', '\n', '\\']
    let body := ['n', '\\', '"', '/', '/', '\\', 'n', '\\', '\\']
    let source := String.ofList ('"' :: (body ++ ['"']))
    let token : Token := ⟨.string text, ⟨0, 11⟩⟩
    Writes text.toList body ∧ Token.scan source = .ok [token, ⟨.endOfInput, ⟨11, 11⟩⟩] ∧
      ∃ lead body rest, Writes text.toList body ∧
        source.toList = lead ++ (('"' :: (body ++ ['"'])) ++ rest) ∧
        token.span.slice? source.toList = some ('"' :: (body ++ ['"'])) := by
  intro text body source token
  have inside : Quoted body :=
    .plain (by decide) (by decide) (.escaped (.plain (by decide) (by decide)
      (.plain (by decide) (by decide) (.escaped (.escaped .nil)))))
  have writes : Writes text.toList body :=
    writes_iff.mpr ⟨inside, by rw [String.toList_ofList]; rfl⟩
  have scanned := Token.scan_literal.1 text body writes
  obtain ⟨lead, body, rest, writes', same, -, sliced⟩ :=
    Token.scan_literal.2 source _ token text scanned List.mem_cons_self rfl
  have bound : Text.byteLength source.toList ≤ Span.maxOffset := by
    rw [String.toList_ofList]
    decide
  exact ⟨writes, scanned, lead, body, rest, writes', same, sliced bound⟩

end PixelScript
