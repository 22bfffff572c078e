import SpanReport.Proofs.Displayed
import SpanReport.Proofs.Guarded
import Mathlib.Data.List.Forall2

/-!
# Underlines

`layout_underlines`: the underline of a line ends where the last of its markers
does. A column shows the greatest marker that covers it, with a caret where a
marker begins. No caret is hidden under another marker: a marker that is drawn
over it is the greater one and covers the column, so it begins there too.
-/

namespace SpanReport.Layout

variable {charset : Charset} {r : Report} {ms : List Entry} {line column : Nat}

-- ---------------------------------------------------------------------------
-- The markers of a line
-- ---------------------------------------------------------------------------

/-- The markers that lie on a line alone, in the order of their spans. -/
structure OnLine (r : Report) (line : Nat) (ms : List Entry) : Prop where
  mem_iff : ∀ e, e ∈ ms ↔ e ∈ r.markers.entries ∧ e.1.isInline ∧ e.1.start.line = line
  ascending : ms.Pairwise fun a b => a.1.rank < b.1.rank

theorem onLine_inline (r : Report) (line : Nat) :
    OnLine r line ((Sheet.ofReport r).inline line) where
  mem_iff e := by
    rw [Sheet.mem_inline]
    exact and_congr_left' Sheet.mem_ofReport_entries
  ascending := ((Sheet.ofReport_ordered r).inline line).imp Span.lt_iff_rank.mp

namespace OnLine

variable (h : OnLine r line ms)
include h

theorem covers_iff (he : e ∈ ms) :
    e.1.covers line column ↔ e.1.start.column ≤ column ∧ column < e.1.stop.column := by
  obtain ⟨-, hi, hl⟩ := (h.mem_iff e).mp he
  exact Span.covers_inline hi hl column

/-- The greater one of two markers begins no further to the left, and where both
begin in one column, it ends no further to the left. -/
theorem columns_le (ha : a ∈ ms) (hb : b ∈ ms) (hle : a.1.rank ≤ b.1.rank) :
    a.1.start.column ≤ b.1.start.column ∧
      (a.1.start.column = b.1.start.column → a.1.stop.column ≤ b.1.stop.column) := by
  obtain ⟨-, hai, hal⟩ := (h.mem_iff a).mp ha
  obtain ⟨-, hbi, hbl⟩ := (h.mem_iff b).mp hb
  have hastop : a.1.start.line = a.1.stop.line := by simpa [Span.isInline] using hai
  have hbstop : b.1.start.line = b.1.stop.line := by simpa [Span.isInline] using hbi
  have hnot : ¬ b.1 < a.1 := fun hlt => not_le_of_gt (Span.lt_iff_rank.mp hlt) hle
  rw [Span.lt_iff_coordinates] at hnot
  omega

end OnLine

/-- A marker with some extent begins in the column. -/
def Begun (ms : List Entry) (column : Nat) : Prop :=
  ∃ e ∈ ms, e.1.start.column = column ∧ column < e.1.stop.column

theorem OnLine.begun_iff (h : OnLine r line ms) (hg : Greatest ms (·.1.covers line column) e) :
    Begun ms column ↔ e.1.start.column = column := by
  obtain ⟨hle, hlt⟩ := (h.covers_iff hg.mem).mp hg.passes
  constructor
  · rintro ⟨other, ho, hstart, hstop⟩
    have hrank := hg.le other ho ((h.covers_iff ho).mpr ⟨hstart.le, hstop⟩)
    have hcolumn := (h.columns_le ho hg.mem hrank).1
    omega
  · exact fun hstart => ⟨e, hg.mem, hstart, hlt⟩

-- ---------------------------------------------------------------------------
-- What is shown
-- ---------------------------------------------------------------------------

/-- What a row shows behind gutter and bracket, where it stands under the source
text. -/
def Row.area (charset : Charset) (s : Sheet) (row : Row) : List (Char × Style) :=
  (shades (row.fragments charset s.frame)).drop s.margin

theorem Row.area_eq {s : Sheet} {row : Row} (h : row.head s.frame = lead ++ rest)
    (hlead : Stretch charset s.margin lead) : row.area charset s =
      shades (rest.map (Piece.draw charset)) ++ shades (row.message s.frame).hang.fragments := by
  rw [Row.area, Row.fragments_eq, h, List.map_append, List.append_assoc, shades_append,
    List.drop_left' hlead.length_shades, shades_append]

/-- A column of an underline. -/
inductive Underlined (charset : Charset) (severity : Severity) (ms : List Entry)
    (line column : Nat) : Char × Style → Prop
  | blank (h : ∀ e ∈ ms, ¬ e.1.covers line column) :
      Underlined charset severity ms line column (' ', Style.plain)
  | caret (h : Greatest ms (·.1.covers line column) e) (hb : Begun ms column) :
      Underlined charset severity ms line column
        (Glyph.caret.char charset, inked (e.2.colour severity))
  | underline (h : Greatest ms (·.1.covers line column) e) (hb : ¬ Begun ms column) :
      Underlined charset severity ms line column
        (Glyph.underline.char charset, inked (e.2.colour severity))

theorem underlined_strokeAt (charset : Charset) (r : Report) (line column : Nat) :
    Underlined charset r.severity ((Sheet.ofReport r).inline line) line column
      (strokeShade charset ((Sheet.ofReport r).strokeAt line column)) := by
  rw [Sheet.strokeAt]
  cases hl : (((Sheet.ofReport r).inline line).filter (·.1.covers line column)).getLast? with
  | none =>
    rw [List.getLast?_eq_none_iff, List.filter_eq_nil_iff] at hl
    exact .blank hl
  | some e =>
    have hg := (getLast?_filter_eq_some_iff ((Sheet.ofReport_ordered r).inline line) _).mp hl
    have hbegun := (onLine_inline r line).begun_iff hg
    by_cases hb : Begun ((Sheet.ofReport r).inline line) column
    · have hcaret : (e.1.start.column == column) = true := beq_iff_eq.mpr (hbegun.mp hb)
      rw [Option.map_some, hcaret]
      exact .caret hg hb
    · have hcaret : (e.1.start.column == column) = false :=
        beq_eq_false_iff_ne.mpr (mt hbegun.mpr hb)
      rw [Option.map_some, hcaret]
      exact .underline hg hb

theorem area_underline (charset : Charset) (s : Sheet) (line : Nat) :
    (Row.underline line (s.bracket line) (s.strokes line)).area charset s =
      (List.range' 1 (Sheet.lastColumn (s.inline line) - 1)).map fun column =>
        strokeShade charset (s.strokeAt line column) := by
  rw [← Sheet.shades_strokes]
  exact (Row.area_eq rfl (s.dotMargin_stretch line)).trans (List.append_nil _)

/-- The columns of an underline, up to where the last marker ends. -/
theorem underlined_strokes (charset : Charset) (r : Report) (line : Nat) :
    List.Forall₂ (Underlined charset r.severity ((Sheet.ofReport r).inline line) line)
      (List.range' 1 (Sheet.lastColumn ((Sheet.ofReport r).inline line) - 1))
      ((Row.underline line ((Sheet.ofReport r).bracket line)
        ((Sheet.ofReport r).strokes line)).area charset (Sheet.ofReport r)) := by
  rw [area_underline, List.forall₂_map_right_iff, List.forall₂_same]
  exact fun column _ => underlined_strokeAt charset r line column

theorem forall₂_columns_iff {R : Nat → α → Prop} {cells : List α} :
    List.Forall₂ R (List.range' 1 n) cells ↔
      cells.length = n ∧ ∀ i cell, cells[i]? = some cell → R (i + 1) cell := by
  rw [List.forall₂_iff_get]
  constructor
  · rintro ⟨hlength, h⟩
    rw [List.length_range'] at hlength
    refine ⟨hlength.symm, fun i cell hcell => ?_⟩
    obtain ⟨hi, rfl⟩ := List.getElem?_eq_some_iff.mp hcell
    simpa [Nat.add_comm] using h i (by simpa [hlength] using hi) hi
  · rintro ⟨rfl, h⟩
    refine ⟨List.length_range', fun i _ hi => ?_⟩
    simpa [Nat.add_comm] using h i cells[i] (List.getElem?_eq_getElem hi)

section
variable {cells : List (Char × Style)}
  (hcells : List.Forall₂ (Underlined charset r.severity ms line) (List.range' 1 n) cells)
include hcells

theorem begun_of_caret (hc : cells[i]? = some (Glyph.caret.char charset, style)) :
    Begun ms (i + 1) := by
  have hblank : Glyph.caret.char charset ≠ ' ' := by cases charset <;> decide
  have hline : Glyph.caret.char charset ≠ Glyph.underline.char charset := by
    cases charset <;> decide
  have hshown := (forall₂_columns_iff.mp hcells).2 i _ hc
  generalize hcell : (Glyph.caret.char charset, style) = cell at hshown
  cases hshown with
  | blank => exact absurd (congrArg Prod.fst hcell) hblank
  | caret _ hb => exact hb
  | underline => exact absurd (congrArg Prod.fst hcell) hline

theorem caret_of_begun (h : OnLine r line ms) (hn : ∀ e ∈ ms, e.1.stop.column ≤ n + 1)
    (hb : Begun ms (i + 1)) : ∃ e, Greatest ms (·.1.covers line ↑(i + 1)) e ∧
      cells[i]? = some (Glyph.caret.char charset, inked (e.2.colour r.severity)) := by
  obtain ⟨other, ho, hstart, hstop⟩ := hb
  obtain ⟨hlength, hshown⟩ := forall₂_columns_iff.mp hcells
  have hi : i < cells.length := by
    have := hn other ho
    omega
  have hcell := hshown i cells[i] (List.getElem?_eq_getElem hi)
  rw [List.getElem?_eq_getElem hi]
  generalize cells[i] = cell at hcell
  cases hcell with
  | blank hnone => exact absurd ((h.covers_iff ho).mpr ⟨hstart.le, hstop⟩) (hnone other ho)
  | caret hg => exact ⟨_, hg, rfl⟩
  | underline _ hnot => exact absurd ⟨other, ho, hstart, hstop⟩ hnot

end

/-- Where a marker begins, its caret is not hidden. -/
theorem caret_strokes (charset : Charset) (hb : Begun ((Sheet.ofReport r).inline line) (i + 1)) :
    ∃ e, Greatest ((Sheet.ofReport r).inline line) (·.1.covers line ↑(i + 1)) e ∧
      ((Row.underline line ((Sheet.ofReport r).bracket line)
        ((Sheet.ofReport r).strokes line)).area charset (Sheet.ofReport r))[i]? =
          some (Glyph.caret.char charset, inked (e.2.colour r.severity)) := by
  refine caret_of_begun (underlined_strokes charset r line) (onLine_inline r line) (fun e he => ?_) hb
  have hlast := Guarded.max?_stop_column (List.ne_nil_of_mem he)
  have hle := List.forall_mem_map.mp (List.max?_eq_some_iff.mp hlast).2 e he
  omega

/-- The markers that lie on a line alone have one underline, which is as long as the
last of them. It shows each column in the colour of the greatest marker that
covers it, with carets where markers of some extent begin and nowhere else. -/
theorem layout_underlines (charset : Charset) (sources : Sources) (r : Report) (line : Nat) :
    ∃ ms, OnLine r line ms ∧ (ms = [] → partRows sources r line .underline = []) ∧
      ∀ stop, (ms.map (·.1.stop.column)).max? = some stop →
        ∃ row, partRows sources r line .underline = [row] ∧
          List.Forall₂ (Underlined charset r.severity ms line) (List.range' 1 (stop - 1))
            (row.area charset (Sheet.ofReport r)) ∧
          ∀ i, (∃ style, (row.area charset (Sheet.ofReport r))[i]? =
            some (Glyph.caret.char charset, style)) ↔ Begun ms (i + 1) := by
  have hon := onLine_inline r line
  refine ⟨_, hon, fun hnone => ?_, fun stop hstop => ?_⟩
  · rw [partRows_underline, if_pos hnone]
  · have hsome : (Sheet.ofReport r).inline line ≠ [] := by
      intro hnone
      rw [hnone] at hstop
      cases hstop
    have hcells := underlined_strokes charset r line
    rw [← Option.some_inj.mp (hstop.symm.trans (Guarded.max?_stop_column hsome))] at hcells
    refine ⟨_, by rw [partRows_underline, if_neg hsome], hcells, fun i => ⟨?_, fun hb => ?_⟩⟩
    · rintro ⟨style, hc⟩
      exact begun_of_caret hcells hc
    · obtain ⟨e, -, hc⟩ := caret_strokes charset hb
      exact ⟨_, hc⟩

end SpanReport.Layout
