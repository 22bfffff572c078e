import SpanReport.Proofs.Recut
import Mathlib.Algebra.GroupWithZero.Nat

/-!
# Printed rows

A row prints its head and then its message, whose further lines hang from where
they begin. The lines of a printed layout are those of its rows, one row after
the other. A head holds no line feed but those of a file name or of a source
text, since no glyph, number or blank is one.
-/

namespace SpanReport

-- ---------------------------------------------------------------------------
-- Lines
-- ---------------------------------------------------------------------------

namespace Text

theorem lines_of_newline_free (h : '\n' ∉ text) : lines text = [text] := by
  have hline := lines_joinLines (List.cons_ne_nil text []) (by simpa using h)
  simpa [joinLines] using hline

/-- What is put in front of a text stands on its first line. -/
theorem lines_append_of_newline_free (hfree : '\n' ∉ lead) (h : lines text = first :: others) :
    lines (lead ++ text) = (lead ++ first) :: others :=
  @lines_append _ [] _ _ _ _ (lines_of_newline_free hfree) h

theorem lines_append_newline (first second : List Char) :
    lines (first ++ '\n' :: second) = lines first ++ lines second := by
  obtain ⟨firsts, last, hf⟩ := List.eq_nil_or_concat (lines first) |>.resolve_left
    (lines_ne_nil first)
  have h := lines_append (by simpa using hf) (lines_newline second)
  simpa [hf] using h

/-- Joined texts have the lines of all of them. -/
theorem flatMap_lines (h : ls ≠ []) : lines (joinLines ls) = ls.flatMap lines := by
  induction ls with
  | nil => exact absurd rfl h
  | cons first others ih =>
    cases others with
    | nil => simp [joinLines]
    | cons second others =>
      have hothers := ih (List.cons_ne_nil second others)
      rw [joinLines_cons_cons, lines_append_newline, hothers]
      rfl

theorem length_lines (text : List Char) : (lines text).length = text.count '\n' + 1 := by
  induction text with
  | nil => rfl
  | cons c rest ih =>
    by_cases hc : c = '\n'
    · subst hc
      simp [ih]
    · obtain ⟨line, others, hr⟩ := List.exists_cons_of_ne_nil (lines_ne_nil rest)
      simpa [lines_cons hc hr, List.count_cons, hc, hr] using ih

/-- The first line is where it was, and each further line stands behind its blanks. -/
theorem lines_hangEach (h : lines text = first :: others) (indents : List Nat) :
    lines (hangEach indents text) =
      first :: others.mapIdx fun i line => List.replicate (indents[i]?.getD 0) ' ' ++ line := by
  induction text generalizing first others indents with
  | nil =>
    obtain ⟨rfl, rfl⟩ := List.cons.inj h
    rfl
  | cons c rest ih =>
    obtain ⟨next, more, hrest⟩ := List.exists_cons_of_ne_nil (lines_ne_nil rest)
    by_cases hc : c = '\n'
    · subst hc
      have hblanks : '\n' ∉ List.replicate (indents.headD 0) ' ' := by simp
      rw [lines_newline, hrest] at h
      obtain ⟨rfl, rfl⟩ := List.cons.inj h
      rw [hangEach, if_pos rfl, lines_newline,
        lines_append_of_newline_free hblanks (ih hrest indents.tail)]
      cases indents <;> simp
    · rw [lines_cons hc hrest] at h
      obtain ⟨rfl, rfl⟩ := List.cons.inj h
      rw [hangEach_cons hc, lines_cons hc (ih hrest indents)]

/-- One indent for all further lines. -/
theorem lines_hang (h : lines text = first :: others) (indent : Nat) :
    lines (hang indent text) = first :: others.map (List.replicate indent ' ' ++ ·) := by
  have hcount : text.count '\n' = others.length := by
    have := length_lines text
    rw [h, List.length_cons] at this
    omega
  rw [← hangEach_replicate, lines_hangEach h, hcount]
  congr 1
  refine List.ext_getElem (by simp) fun i hi _ => ?_
  have hline : i < others.length := by simpa using hi
  simp [List.getElem?_replicate, hline]

theorem count_hangEach (indents : List Nat) (text : List Char) :
    (hangEach indents text).count '\n' = text.count '\n' := by
  induction text generalizing indents with
  | nil => rfl
  | cons c rest ih =>
    by_cases hc : c = '\n'
    · subst hc
      simp [hangEach, ih, List.count_eq_zero]
    · simp [hangEach_cons hc, ih, hc]

end Text

namespace Layout

-- ---------------------------------------------------------------------------
-- Rows of a printed layout
-- ---------------------------------------------------------------------------

/-- What a row prints, wherever it stands. -/
def Row.chars (charset : Charset) (f : Frame) (row : Row) : List Char :=
  charsOf charset (row.head f) ++
    Text.hangEach (row.messageIndents charset f) (row.message f).wording

theorem printed_rows (charset : Charset) (sources : Sources) (r : Report) :
    (r.layout charset sources).renderPlain.toList =
      Text.joinLines ((rows sources r).map (Row.chars charset (Sheet.ofReport r).frame)) :=
  toList_renderPlain_layout charset sources r

theorem lines_printed (charset : Charset) (sources : Sources) (r : Report) :
    Text.lines (r.layout charset sources).renderPlain.toList = (rows sources r).flatMap fun row =>
      Text.lines (row.chars charset (Sheet.ofReport r).frame) := by
  have hne : (rows sources r).map (Row.chars charset (Sheet.ofReport r).frame) ≠ [] := by
    simp [rows]
  rw [printed_rows, Text.flatMap_lines hne, List.flatMap_map]

-- ---------------------------------------------------------------------------
-- Line feeds in heads
-- ---------------------------------------------------------------------------

/-- The line feeds that a row shows before its message: those of a file name, or
of a source text. -/
def Row.feeds : Row → Nat
  | pointer span => span.file.toList.count '\n'
  | source _ _ (some runs) => (runs.flatMap (·.text.toList)).count '\n'
  | _ => 0

/-- The line feeds that a piece shows. -/
def Piece.feeds (charset : Charset) (p : Piece) : Nat := (p.draw charset).content.toList.count '\n'

theorem count_charsOf (charset : Charset) (ps : List Piece) :
    (charsOf charset ps).count '\n' = (ps.map (Piece.feeds charset)).sum := by
  rw [charsOf, List.count_flatMap]
  rfl

section
variable {charset : Charset}

@[simp] theorem feeds_text (s : String) (style : Style) :
    (Piece.text s style).feeds charset = s.toList.count '\n' := rfl

@[simp] theorem feeds_glyph (g : Glyph) (style : Style) :
    (Piece.glyph g style).feeds charset = 0 := by
  have h : Stretch charset g.width [.glyph g style] := .glyph g style
  simpa [count_charsOf] using List.count_eq_zero.mpr h.newline_free

@[simp] theorem feeds_rule (n : Nat) (style : Style) :
    ({ ink := .glyph .rule n, style } : Piece).feeds charset = 0 := by
  have h : Stretch charset n [{ ink := .glyph .rule n, style }] := .rule n style
  simpa [count_charsOf] using List.count_eq_zero.mpr h.newline_free

@[simp] theorem feeds_blanks (n : Nat) : (Piece.blanks n).feeds charset = 0 := by
  simp [Piece.blanks, List.count_eq_zero]

theorem feeds_bracket (b : Bracket) : (b.pieces.map (Piece.feeds charset)).sum = 0 := by
  cases b <;> simp [Bracket.pieces]

theorem feeds_excerpt (excerpt : Option (List Run)) :
    ((excerptPieces excerpt).map (Piece.feeds charset)).sum =
      ((excerpt.getD []).flatMap (·.text.toList)).count '\n' := by
  cases excerpt with
  | none => simp [excerptPieces, absentLine]
  | some runs =>
    have hrun (run : Run) : run.piece.feeds charset = run.text.toList.count '\n' := by
      obtain ⟨text, colour⟩ := run
      cases colour <;> rfl
    simp [excerptPieces, List.count_flatMap, Function.comp_def, hrun]

theorem feeds_strokes (strokes : List (Option Stroke)) :
    (strokes.map (Piece.feeds charset ∘ strokePiece)).sum = 0 := by
  induction strokes with
  | nil => rfl
  | cons stroke rest ih => cases stroke <;> simpa [strokePiece] using ih

theorem feeds_pipes (column stop : Nat) (pipes : List Pipe) :
    ((pipePieces column stop pipes).map (Piece.feeds charset)).sum = 0 := by
  induction pipes generalizing column with
  | nil => simp [pipePieces]
  | cons pipe rest ih => simp [pipePieces, ih]

theorem feeds_dotGutter (f : Frame) : (f.dotGutter.map (Piece.feeds charset)).sum = 0 := by
  simp [Frame.dotGutter, Frame.blankGutter]

theorem feeds_barGutter (f : Frame) : (f.barGutter.map (Piece.feeds charset)).sum = 0 := by
  simp [Frame.barGutter, Frame.blankGutter]

theorem feeds_number (f : Frame) (line : Nat) :
    ((f.numberGutter line).map (Piece.feeds charset)).sum = 0 := by
  simp [Frame.numberGutter, List.count_eq_zero, Text.newline_not_mem_toDigits]

theorem Row.count_head (f : Frame) (row : Row) :
    (charsOf charset (row.head f)).count '\n' = row.feeds := by
  rw [count_charsOf]
  cases row with
  | title message =>
    have hlabel : f.severity.label.toList.count '\n' = 0 := by cases f.severity <;> rfl
    simp [Row.head, Row.feeds, hlabel]
  | pointer span =>
    have hdigits (n : Nat) : (Nat.toDigits 10 n).count '\n' = 0 :=
      List.count_eq_zero.mpr (Text.newline_not_mem_toDigits n)
    simp [Row.head, Row.feeds, Frame.blankGutter, Span.text, hdigits]
  | rail => exact feeds_barGutter f
  | source line bracket excerpt =>
    cases excerpt <;>
      simp [Row.head, Row.feeds, feeds_number, feeds_bracket, feeds_excerpt]
  | underline line bracket strokes =>
    simp [Row.head, Row.feeds, feeds_dotGutter, feeds_bracket, feeds_strokes]
  | label line bracket pipes shared entry =>
    simp [Row.head, Row.feeds, feeds_dotGutter, feeds_bracket, feeds_pipes]
  | trailerHead colour => simp [Row.head, Row.feeds, feeds_dotGutter]
  | trailer last entry => simp [Row.head, Row.feeds, feeds_dotGutter]
  | gap => exact feeds_dotGutter f
  | hint message => simp [Row.head, Row.feeds, feeds_barGutter]
  | footer => simp [Row.head, Row.feeds]

/-- A printed row has the line feeds of its head and those of its message. -/
theorem Row.count_chars (f : Frame) (row : Row) :
    (row.chars charset f).count '\n' = row.feeds + (row.message f).wording.count '\n' := by
  rw [Row.chars, List.count_append, count_head, Text.count_hangEach]

end

end Layout

end SpanReport
