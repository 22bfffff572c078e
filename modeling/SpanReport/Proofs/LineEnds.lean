import SpanReport.Proofs.Displayed
import SpanReport.Proofs.Guarded
import SpanReport.Proofs.Markers
import SpanReport.Proofs.Printed

/-!
# How lines end

If no message and no source text ends a line with a blank, then hardly any line
of a printed report does. `layout_trails`: the exception is the underline of a
line on which a span without extent ends behind all spans with extent. It is
drawn up to the column before that span, and there is nothing to draw.
-/

namespace SpanReport

-- ---------------------------------------------------------------------------
-- Texts
-- ---------------------------------------------------------------------------

namespace Text

/-- Some line of the text ends with a blank. -/
def Trails (text : List Char) : Prop := ∃ line ∈ lines text, line.getLast? = some ' '

instance (text : List Char) : Decidable (Trails text) := by
  unfold Trails
  infer_instance

/-- Every line of the text shows something, and none ends with a blank. -/
def Tidy (text : List Char) : Prop := ∀ line ∈ lines text, line.getLast?.any (· != ' ')

instance (text : List Char) : Decidable (Tidy text) := by
  unfold Tidy
  infer_instance

theorem Tidy.not_trails (h : Tidy text) : ¬ Trails text := by
  rintro ⟨line, hl, hlast⟩
  simpa [hlast] using h line hl

/-- Whatever stands before a line leaves its end as it is. -/
theorem getLast?_any_append (lead : List Char) (h : line.getLast?.any (· != ' ')) :
    (lead ++ line).getLast?.any (· != ' ') := by
  have hne : line ≠ [] := by
    rintro rfl
    cases h
  rwa [List.getLast?_append_of_ne_nil _ hne]

theorem Tidy.append (h : '\n' ∉ lead) (ht : Tidy text) : Tidy (lead ++ text) := by
  obtain ⟨first, others, hl⟩ := List.exists_cons_of_ne_nil (lines_ne_nil text)
  rw [Tidy, hl, List.forall_mem_cons] at ht
  rw [Tidy, lines_append_of_newline_free h hl, List.forall_mem_cons]
  exact ⟨getLast?_any_append lead ht.1, ht.2⟩

theorem Tidy.hangEach (h : Tidy text) (indents : List Nat) : Tidy (hangEach indents text) := by
  obtain ⟨first, others, hl⟩ := List.exists_cons_of_ne_nil (lines_ne_nil text)
  rw [Tidy, hl, List.forall_mem_cons] at h
  rw [Tidy, lines_hangEach hl, List.forall_mem_cons]
  refine ⟨h.1, fun line hline => ?_⟩
  obtain ⟨i, hi, rfl⟩ := List.mem_mapIdx.mp hline
  exact getLast?_any_append _ (h.2 _ (List.getElem_mem hi))

theorem tidy_toDigits (n : Nat) : Tidy (Nat.toDigits 10 n) := by
  have hdigit : ∀ c ∈ Nat.toDigits 10 n, c.isDigit :=
    fun c hc => Nat.isDigit_of_mem_toDigits (by decide) (by decide) hc
  have hne : Nat.toDigits 10 n ≠ [] := List.length_pos_iff.mp Nat.length_toDigits_pos
  intro line hl
  rw [lines_of_newline_free (newline_not_mem_toDigits n), List.mem_singleton] at hl
  subst hl
  rw [List.getLast?_eq_some_getLast hne]
  have hlast := hdigit _ (List.getLast_mem hne)
  simp only [Option.any_some, bne_iff_ne]
  rintro he
  rw [he] at hlast
  cases hlast

end Text

namespace Layout

variable {charset : Charset} {s : Sheet}

-- ---------------------------------------------------------------------------
-- Rows that end their lines tidily
-- ---------------------------------------------------------------------------

/-- All glyphs but those that branch off to a message of the trailer show something in
their last column. -/
theorem tidy_glyph (h : g ∉ [.trailerBranch, .trailerLast]) (style : Style) :
    Text.Tidy (charsOf charset [.glyph g style]) := by
  rw [charsOf_glyph]
  cases charset <;> cases g <;> first | decide | exact absurd (by decide) h

theorem tidy_behind {lead : List Piece} (hl : (lead.map (Piece.feeds charset)).sum = 0)
    (ht : Text.Tidy (charsOf charset ps)) : Text.Tidy (charsOf charset (lead ++ ps)) := by
  rw [charsOf_append]
  exact ht.append (List.count_eq_zero.mp ((count_charsOf charset lead).trans hl))

/-- A message ends the lines of its row. -/
theorem Row.tidy_of_message {row : Row} (hf : row.feeds = 0)
    (hm : Text.Tidy (row.message f).wording) : Text.Tidy (row.chars charset f) :=
  (hm.hangEach _).append (List.count_eq_zero.mp ((row.count_head f).trans hf))

/-- Without a message, its head does. -/
theorem Row.tidy_of_head {row : Row} (hm : row.message f = {})
    (hh : Text.Tidy (charsOf charset (row.head f))) : Text.Tidy (row.chars charset f) := by
  simpa [Row.chars, hm, Document.wording, Text.hangEach] using hh

theorem Row.tidy_of_glyph {row : Row} {lead : List Piece} {g : Glyph} {style : Style}
    (hm : row.message f = {})
    (hh : row.head f = lead ++ [.glyph g style]) (hlead : (lead.map (Piece.feeds charset)).sum = 0)
    (hg : g ∉ [.trailerBranch, .trailerLast]) : Text.Tidy (row.chars charset f) := by
  refine row.tidy_of_head hm ?_
  rw [hh]
  exact tidy_behind hlead (tidy_glyph hg style)

theorem tidy_pointer (f : Frame) (h : '\n' ∉ span.file.toList) :
    Text.Tidy ((Row.pointer span).chars charset f) := by
  let lead : List Piece := [f.blankGutter, .glyph .fileArrow (bold frameColour), .text " "]
  have hlead : (lead.map (Piece.feeds charset)).sum = 0 := by simp [lead, Frame.blankGutter]
  have htext : Text.Tidy (charsOf charset [.text span.text (bold fileColour)]) := by
    simp only [charsOf, List.flatMap_singleton, Piece.draw, Piece.text, Ink.draw, Span.text,
      String.toList_append, Nat.toList_repr]
    refine (Text.tidy_toDigits span.stop.column).append ?_
    simp [h, Text.newline_not_mem_toDigits]
  exact Row.tidy_of_head rfl (tidy_behind hlead htext)

theorem tidy_absent : Text.Tidy (charsOf charset (excerptPieces none)) := by
  cases charset <;> decide

theorem tidy_source (f : Frame) (line : Nat) (bracket : Bracket) {sources : Sources}
    (h : ∀ text, s.text? sources line = some text → Text.Tidy text.toList) :
    Text.Tidy ((Row.source line bracket (s.excerpt sources line)).chars charset f) := by
  have hlead : ((f.numberGutter line ++ .text " " :: bracket.pieces).map
      (Piece.feeds charset)).sum = 0 := by
    simp [feeds_number, feeds_bracket]
  refine Row.tidy_of_head rfl (tidy_behind hlead ?_)
  cases ht : s.text? sources line with
  | none =>
    rw [Sheet.excerpt_eq, ht]
    exact tidy_absent
  | some text =>
    rw [Sheet.charsOf_excerpt ht]
    exact h text ht

-- ---------------------------------------------------------------------------
-- Underlines
-- ---------------------------------------------------------------------------

namespace Sheet

theorem strokeAt_eq_none (s : Sheet) (line column : Nat) : s.strokeAt line column = none ↔
    ∀ e ∈ s.inline line, ¬ (e.1.start.column ≤ column ∧ column < e.1.stop.column) := by
  rw [strokeAt, Option.map_eq_none_iff, List.getLast?_eq_none_iff, List.filter_eq_nil_iff]
  refine forall₂_congr fun e he => ?_
  obtain ⟨-, hi, hl⟩ := mem_inline.mp he
  rw [Span.covers_inline hi hl]

/-- Nothing is drawn in the last column if only spans without extent end there. -/
theorem strokeAt_lastColumn (h : s.inline line ≠ []) :
    s.strokeAt line (lastColumn (s.inline line) - 1) = none ↔
      ∃ e ∈ s.inline line, e.1.start = e.1.stop ∧ ∀ other ∈ s.inline line,
        other.1.start ≠ other.1.stop → other.1.stop.column < e.1.stop.column := by
  obtain ⟨hlast, hle⟩ := List.max?_eq_some_iff.mp (Guarded.max?_stop_column h)
  obtain ⟨last, hmem, hcolumn⟩ := List.mem_map.mp hlast
  have hle := List.forall_mem_map.mp hle
  -- On one line a span has no extent if it begins and ends in one column.
  have hextent : ∀ e ∈ s.inline line, e.1.start.column ≤ e.1.stop.column ∧
      (e.1.start = e.1.stop ↔ e.1.start.column = e.1.stop.column) := by
    intro e he
    obtain ⟨-, hi, -⟩ := mem_inline.mp he
    have hline : e.1.start.line = e.1.stop.line := by simpa [Span.isInline] using hi
    have hbefore := e.1.start_before_stop
    unfold Point.Before at hbefore
    refine ⟨by omega, fun hs => congrArg Point.column hs, fun hs => ?_⟩
    exact congrArg₂ Point.mk hline hs
  rw [strokeAt_eq_none]
  constructor
  · intro hnone
    refine ⟨last, hmem, ?_, fun other ho hne => ?_⟩
    · have hempty := hnone last hmem
      have hlast := hextent last hmem
      exact hlast.2.mpr (by omega)
    · have hshort := hnone other ho
      have hother := hextent other ho
      have hreach := hle other ho
      have hcolumns := mt hother.2.mpr hne
      omega
  · rintro ⟨e, he, hempty, hbehind⟩ other ho ⟨hstart, hstop⟩
    have hreach := hle e he
    have hshort := hbehind other ho fun hs => by rw [hs] at hstart; omega
    omega

theorem getLast?_margin (b : Bracket) :
    (charsOf charset (.text " " :: b.pieces)).getLast? = some ' ' := by
  cases b <;>
    simp [charsOf, Bracket.pieces, Piece.draw, Piece.text, Ink.draw, List.getLast?_cons]

/-- An underline ends with what is drawn in the last column. If that is the column before
the text, it ends with the blank of its margin. -/
theorem getLast?_underline (charset : Charset) (s : Sheet) (line : Nat) :
    ((Row.underline line (s.bracket line) (s.strokes line)).chars charset s.frame).getLast? =
      some (strokeChar charset (s.strokeAt line (lastColumn (s.inline line) - 1))) := by
  have hhead : (Row.underline line (s.bracket line) (s.strokes line)).chars charset s.frame =
      charsOf charset s.frame.dotGutter ++ charsOf charset (.text " " :: (s.bracket line).pieces) ++
        (List.range' 1 (lastColumn (s.inline line) - 1)).map fun column =>
          strokeChar charset (s.strokeAt line column) := by
    rw [← charsOf_strokes, ← charsOf_append, ← charsOf_append]
    simp [Row.chars, Row.message, Row.head, Document.wording, Text.hangEach]
  rw [hhead]
  cases hl : lastColumn (s.inline line) - 1 with
  | zero =>
    have hnone : s.strokeAt line 0 = none := by
      rw [strokeAt_eq_none]
      intro e he hcovered
      have hstart := e.1.one_le_column.1
      omega
    simp [hnone, getLast?_margin, strokeChar]
  | succ k => simp [List.getLast?_range']

theorem strokeChar_eq_blank {stroke : Option Stroke} :
    strokeChar charset stroke = ' ' ↔ stroke = none := by
  have hglyph : ∀ g ∈ [Glyph.caret, .underline], g.char charset ≠ ' ' := by
    cases charset <;> decide
  cases stroke with
  | none => simp [strokeChar]
  | some stroke =>
    have hdrawn : strokeChar charset (some stroke) ≠ ' ' :=
      hglyph _ (by cases stroke.caret <;> simp)
    simp [hdrawn]

theorem underline_mem_lineRows (h : s.inline line ≠ []) :
    .underline line (s.bracket line) (s.strokes line) ∈ s.lineRows sources line := by
  simp [lineRows, h]

theorem inline_ne_nil_of_underline {b : Bracket} {drawn : List (Option Stroke)}
    (h : .underline line b drawn ∈ s.lineRows sources line) : s.inline line ≠ [] := by
  intro hnil
  simp [lineRows, labelRows, hnil] at h

theorem trails_underline (h : s.inline line ≠ []) :
    Text.Trails ((Row.underline line (s.bracket line) (s.strokes line)).chars charset s.frame) ↔
      ∃ e ∈ s.inline line, e.1.start = e.1.stop ∧ ∀ other ∈ s.inline line,
        other.1.start ≠ other.1.stop → other.1.stop.column < e.1.stop.column := by
  have hfree : '\n' ∉
      (Row.underline line (s.bracket line) (s.strokes line)).chars charset s.frame := by
    rw [← List.count_eq_zero, Row.count_chars]
    rfl
  rw [Text.Trails, Text.lines_of_newline_free hfree]
  simp only [List.mem_singleton, exists_eq_left]
  rw [getLast?_underline, Option.some_inj, strokeChar_eq_blank, strokeAt_lastColumn h]

end Sheet

-- ---------------------------------------------------------------------------
-- Layouts
-- ---------------------------------------------------------------------------

/-- What a layout shows of messages and sources is tidy, and the file that its
pointer names does not break the line. -/
structure TidyParts (sources : Sources) (r : Report) : Prop where
  message : Text.Tidy r.message.wording
  markers : ∀ e ∈ r.markers.entries, Text.Tidy e.2.message.wording
  hints : ∀ hint ∈ r.hints, Text.Tidy hint.wording
  texts : ∀ line ∈ (Sheet.ofReport r).lineNumbers, ∀ text,
    (Sheet.ofReport r).text? sources line = some text → Text.Tidy text.toList
  file : '\n' ∉ (headerSpan (Sheet.ofReport r).entries).file.toList

/-- Every row is tidy but for the underlines of lines. -/
theorem tidy_or_underline (h : TidyParts sources r) (charset : Charset)
    (hrow : row ∈ rows sources r) :
    Text.Tidy (Row.chars charset (Sheet.ofReport r).frame row) ∨
      ∃ line, (Sheet.ofReport r).inline line ≠ [] ∧
        row = .underline line ((Sheet.ofReport r).bracket line)
          ((Sheet.ofReport r).strokes line) := by
  have hmarkers : ∀ e ∈ (Sheet.ofReport r).entries, Text.Tidy e.2.message.wording :=
    fun e he => h.markers e (Sheet.mem_ofReport_entries.mp he)
  have hblank : (([(Sheet.ofReport r).frame.blankGutter] : List Piece).map
      (Piece.feeds charset)).sum = 0 := by
    simp [Frame.blankGutter]
  rcases mem_rows hrow with rfl | rfl | rfl | ⟨line, hline, hm⟩ | hm | hm | rfl
  · exact .inl (Row.tidy_of_message rfl h.message)
  · exact .inl (tidy_pointer _ h.file)
  · exact .inl (Row.tidy_of_glyph rfl (List.singleton_append ..).symm hblank (by decide))
  · by_cases hu : row = .underline line ((Sheet.ofReport r).bracket line)
      ((Sheet.ofReport r).strokes line)
    · exact .inr ⟨line, Sheet.inline_ne_nil_of_underline (hu ▸ hm), hu⟩
    · left
      rcases Sheet.mem_lineRows hm with rfl | rfl | ⟨earlier, e, later, hs, rfl⟩
      · exact tidy_source _ line _ (h.texts line hline)
      · exact absurd rfl hu
      · have he : e ∈ (Sheet.ofReport r).inline line := by simp [hs]
        refine Row.tidy_of_message rfl ?_
        simpa [Sheet.labelRow, Row.message, Document.wording_restyle] using
          hmarkers e (Sheet.mem_inline.mp he).1
  · left
    obtain ⟨e, he, rfl | ⟨last, rfl⟩⟩ := Sheet.mem_trailerRows hm
    · have hlead : (((Sheet.ofReport r).frame.dotGutter ++ [Piece.text " "]).map
          (Piece.feeds charset)).sum = 0 := by
        simp [feeds_dotGutter]
      exact Row.tidy_of_glyph rfl (List.append_assoc _ [_] [_]).symm hlead (by decide)
    · exact Row.tidy_of_message rfl (hmarkers e (Sheet.mem_multiline.mp he).1)
  · left
    obtain rfl | ⟨hint, hh, rfl⟩ := mem_hintRows hm
    · exact Row.tidy_of_glyph rfl (List.singleton_append ..).symm hblank (by decide)
    · refine Row.tidy_of_message rfl ?_
      simpa [Row.message, Document.wording_restyle] using h.hints hint hh
  · refine .inl (Row.tidy_of_glyph rfl (List.singleton_append ..).symm ?_ (by decide))
    simp

/-- A line of a printed layout belongs to one of its rows. -/
theorem trails_rows (charset : Charset) (sources : Sources) (r : Report) :
    Text.Trails (r.layout charset sources).renderPlain.toList ↔
      ∃ row ∈ rows sources r, Text.Trails (row.chars charset (Sheet.ofReport r).frame) := by
  simp only [Text.Trails, lines_printed, List.mem_flatMap]
  grind

theorem trails_of_underline (h : e ∈ (Sheet.ofReport r).inline line)
    (ht : Text.Trails ((Row.underline line ((Sheet.ofReport r).bracket line)
      ((Sheet.ofReport r).strokes line)).chars charset (Sheet.ofReport r).frame)) :
    Text.Trails (r.layout charset sources).renderPlain.toList := by
  obtain ⟨hentry, -, rfl⟩ := Sheet.mem_inline.mp h
  exact (trails_rows charset sources r).mpr ⟨_, (infix_rows (Sheet.start_mem_lineNumbers
    hentry)).subset (Sheet.underline_mem_lineRows (List.ne_nil_of_mem h)), ht⟩

/-- If messages, hints and displayed texts end no line with a blank, a printed
report does so only in the underline of a line where a span without extent ends
behind all spans with extent that lie on the line alone. -/
theorem layout_trails (h : TidyParts sources r) (charset : Charset) :
    Text.Trails (r.layout charset sources).renderPlain.toList ↔
      ∃ e ∈ r.markers.entries, e.1.start = e.1.stop ∧ ∀ other ∈ r.markers.entries,
        other.1.isInline → other.1.start.line = e.1.start.line →
          other.1.start ≠ other.1.stop → other.1.stop.column < e.1.stop.column := by
  have hmem (line : Nat) (e : Entry) : e ∈ (Sheet.ofReport r).inline line ↔
      e ∈ r.markers.entries ∧ e.1.isInline ∧ e.1.start.line = line := by
    rw [Sheet.mem_inline, ← (sortEntries_perm r.markers.entries).mem_iff]
    rfl
  constructor
  · intro htrails
    obtain ⟨row, hrow, htrails⟩ := (trails_rows charset sources r).mp htrails
    obtain htidy | ⟨line, hne, rfl⟩ := tidy_or_underline h charset hrow
    · exact absurd htrails htidy.not_trails
    · obtain ⟨e, he, hempty, hbehind⟩ := (Sheet.trails_underline hne).mp htrails
      obtain ⟨hentry, -, rfl⟩ := (hmem line e).mp he
      refine ⟨e, hentry, hempty, fun other ho hi hl => ?_⟩
      exact hbehind other ((hmem _ other).mpr ⟨ho, hi, hl⟩)
  · rintro ⟨e, he, hempty, hbehind⟩
    have hinline : e.1.isInline := by simp [Span.isInline, hempty]
    have hmine := (hmem e.1.start.line e).mpr ⟨he, hinline, rfl⟩
    refine trails_of_underline hmine ((Sheet.trails_underline (List.ne_nil_of_mem hmine)).mpr
      ⟨e, hmine, hempty, fun other ho => ?_⟩)
    obtain ⟨hentry, hi, hl⟩ := (hmem _ other).mp ho
    exact hbehind other hentry hi hl

/-- A span without extent, and one that ends behind it. -/
def atThird : Span :=
  ⟨"a.txt", ⟨1, 3⟩, ⟨1, 3⟩, by decide, by decide, by decide⟩

def thirdLetter : Span :=
  ⟨"a.txt", ⟨1, 3⟩, ⟨1, 4⟩, by decide, by decide, by decide⟩

def pointing : Report :=
  { severity := .error, message := .ofText "no such name",
    markers := .ofList [(atThird, ⟨.primary, .ofText "here"⟩)] }

def covering : Report :=
  { severity := .error, message := .ofText "no such name",
    markers := .ofList [(atThird, ⟨.primary, .ofText "here"⟩),
      (thirdLetter, ⟨.context, .ofText "in\nthis"⟩)] }

theorem sheet_pointing : Sheet.ofReport pointing = ⟨.error, pointing.markers.entries⟩ := by
  rw [Sheet.ofReport, sortEntries]
  exact congrArg _ (List.mergeSort_singleton _)

theorem sheet_covering : Sheet.ofReport covering = ⟨.error, covering.markers.entries⟩ := by
  refine congrArg _ (sortEntries_of_pairwise ?_)
  decide

theorem tidy_oneText {s : Sheet} (h : s.text? oneText line = some text) :
    Text.Tidy text.toList := by
  obtain ⟨first, -, hl⟩ := Option.bind_eq_some_iff.mp h
  obtain ⟨source, hs, ht⟩ := Sheet.mem_of_line? hl
  have htidy : ∀ source ∈ oneText, ∀ text ∈ source.2, Text.Tidy text.toList := by decide
  exact htidy source hs text ht

theorem layout_trails_covering : TidyParts oneText covering ∧
    ¬ Text.Trails (covering.layout .ascii oneText).renderPlain.toList := by
  have h : TidyParts oneText covering :=
    ⟨by decide, by decide, by decide, fun _ _ _ => tidy_oneText, by rw [sheet_covering]; decide⟩
  refine ⟨h, fun htrails => ?_⟩
  have hnone : ¬ ∃ e ∈ covering.markers.entries, e.1.start = e.1.stop ∧
      ∀ other ∈ covering.markers.entries, other.1.isInline →
        other.1.start.line = e.1.start.line → other.1.start ≠ other.1.stop →
          other.1.stop.column < e.1.stop.column := by
    decide
  exact hnone ((layout_trails h .ascii).mp htrails)

/-- An underline that ends before a span without extent ends with blanks. -/
theorem layout_pointing_trails : TidyParts oneText pointing ∧
    Text.Trails (pointing.layout .ascii oneText).renderPlain.toList := by
  refine ⟨⟨by decide, by decide, by decide, fun _ _ _ => tidy_oneText, ?_⟩, ?_⟩
  · rw [sheet_pointing]
    decide
  · have hmem : (atThird, ⟨.primary, .ofText "here"⟩) ∈ (Sheet.ofReport pointing).inline 1 := by
      rw [sheet_pointing]
      decide
    refine trails_of_underline hmem ((Sheet.trails_underline (List.ne_nil_of_mem hmem)).mpr ?_)
    rw [sheet_pointing]
    decide

end Layout

end SpanReport
