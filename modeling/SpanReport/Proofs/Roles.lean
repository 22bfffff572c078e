import SpanReport.Proofs.Columns
import SpanReport.Proofs.Equality
import SpanReport.Proofs.Printed

/-!
# Roles and severities

Colours decide how the text of a line is cut and in which style pieces are
drawn, and no character depends on them. `layout_roles`: reports that differ in
nothing but severity and roles are printed alike, but for the label of the title
and the span that the pointer names.
-/

namespace SpanReport

/-- A marker without its role. -/
def Marker.fade (m : Marker) : Marker := { m with role := .primary }

/-- A report without its severity and without the roles of its markers. -/
def Report.fade (r : Report) : Report :=
  { r with severity := .error, markers := r.markers.remark Marker.fade }

theorem Report.fade_beq {a b : Report} (hmessage : a.message = b.message)
    (hhints : a.hints = b.hints) (hmarkers : ∀ span,
      (a.markers.get? span).map Marker.message = (b.markers.get? span).map Marker.message) :
    a.fade == b.fade := by
  have hfade : Marker.fade = Marker.mk .primary ∘ Marker.message := rfl
  refine beq_iff.mpr ⟨rfl, hmessage, hhints, fun span => ?_⟩
  simp only [fade, Markers.get?_remark, hfade, ← Option.map_map, hmarkers]

-- ---------------------------------------------------------------------------
-- Messages that begin further to the right
-- ---------------------------------------------------------------------------

namespace Text

theorem advance_blanks (column : Int) (n : Nat) :
    advance column (List.replicate n ' ') = column + n := by
  have hfree : '\n' ∉ List.replicate n ' ' := by simp
  rw [advance_of_newline_free hfree, List.length_replicate]

theorem advance_hang_add (column : Int) (indent shift : Nat) (text : List Char) :
    advance (column + shift) (hang (indent + shift) text) =
      advance column (hang indent text) + shift := by
  induction text generalizing column with
  | nil => rfl
  | cons c rest ih =>
    by_cases hc : c = '\n'
    · have hfeed (column : Int) (text : List Char) : advance column ('\n' :: text) =
          advance 1 text := rfl
      have hcolumn : (1 : Int) + (indent + shift : Nat) = 1 + indent + shift := by omega
      rw [hc, hang_newline, hang_newline, hfeed, hfeed, advance_append, advance_append,
        advance_blanks, advance_blanks, hcolumn, ih]
    · have hcolumn : column + shift + 1 = column + 1 + shift := by omega
      rw [hang_cons hc, hang_cons hc, advance_cons hc, advance_cons hc, hcolumn, ih]

end Text

namespace Fragment

variable (f : Fragment) {column : Int} (h : 1 ≤ column) (shift : Nat)
include h

theorem indent_hang_add : f.hang.indent (column + shift) = f.hang.indent column + shift := by
  simp only [indent, hang, if_true]
  omega

theorem next_hang_add : f.hang.next (column + shift) = f.hang.next column + shift := by
  rw [next, next, chars, chars, f.indent_hang_add h, Text.advance_hang_add]

end Fragment

namespace Document

/-- The further lines of a message move with its begin. -/
theorem indentsFrom_hang_add (d : Document) {column : Int} (h : 1 ≤ column) (shift : Nat) :
    indentsFrom (column + shift) d.hang.fragments =
      (indentsFrom column d.hang.fragments).map (· + shift) := by
  rw [hang]
  induction d.fragments generalizing column with
  | nil => rfl
  | cons f rest ih =>
    rw [List.map_cons, indentsFrom, indentsFrom, f.next_hang_add h, ih (Fragment.one_le_next h _),
      List.map_append, List.map_replicate, f.indent_hang_add h]

theorem indentsFrom_plain (column : Int) (d : Document) :
    indentsFrom column d.plain.hang.fragments = indentsFrom column d.hang.fragments := by
  rw [plain, restyle, hang, hang]
  induction d.fragments generalizing column with
  | nil => rfl
  | cons f rest ih =>
    rw [List.map_cons, List.map_cons, indentsFrom, ih]
    rfl

end Document

namespace Layout

-- ---------------------------------------------------------------------------
-- Rows in other colours
-- ---------------------------------------------------------------------------

theorem charsOf_congr (h : ps.map Piece.ink = qs.map Piece.ink) (charset : Charset) :
    charsOf charset ps = charsOf charset qs := by
  have hinks (ps : List Piece) : charsOf charset ps =
      (ps.map Piece.ink).flatMap fun ink => (ink.draw charset).toList := by
    rw [List.flatMap_map]
    rfl
  rw [hinks, hinks, h]

theorem Bracket.inks_recolour (hue : String → String) (b : Bracket) :
    (b.recolour hue).pieces.map Piece.ink = b.pieces.map Piece.ink := by
  cases b <;> rfl

theorem inks_strokes (hue : String → String) (strokes : List (Option Stroke)) :
    ((strokes.map (Option.map (Stroke.recolour hue))).map strokePiece).map Piece.ink =
      (strokes.map strokePiece).map Piece.ink := by
  simp only [List.map_map]
  refine List.map_congr_left fun stroke _ => ?_
  cases stroke <;> rfl

theorem inks_pipes (hue : String → String) (column stop : Nat) (pipes : List Pipe) :
    (pipePieces column stop (pipes.map (Pipe.recolour hue))).map Piece.ink =
      (pipePieces column stop pipes).map Piece.ink := by
  induction pipes generalizing column with
  | nil => rfl
  | cons pipe rest ih =>
    simp only [List.map_cons, pipePieces, Pipe.recolour, ih]
    rfl

namespace Row

variable {charset : Charset}

theorem messageColumn_eq (charset : Charset) (f : Frame) (row : Row) :
    row.messageColumn charset f = Text.advance 1 (charsOf charset (row.head f)) := by
  have hplain : ∀ fragment ∈ (row.head f).map (Piece.draw charset), fragment.hanging = false :=
    List.forall_mem_map.mpr (row.head_hanging f)
  rw [messageColumn, Document.columnFrom_of_not_hanging hplain, List.flatMap_map]
  rfl

/-- Styles apart, the head and the message of a row are all that it prints. -/
theorem chars_congr {row other : Row} {f g : Frame}
    (hhead : charsOf charset (row.head f) = charsOf charset (other.head g))
    (hmessage : (row.message f).plain = (other.message g).plain) :
    row.chars charset f = other.chars charset g := by
  have hwording : (row.message f).wording = (other.message g).wording := by
    rw [← Document.wording_restyle Style.plain, ← Document.plain, hmessage, Document.plain,
      Document.wording_restyle]
  have hindents : row.messageIndents charset f = other.messageIndents charset g := by
    rw [messageIndents, messageIndents, messageColumn_eq, messageColumn_eq, hhead,
      ← Document.indentsFrom_plain, hmessage, Document.indentsFrom_plain]
  rw [chars, chars, hhead, hwording, hindents]

/-- However a source text is cut, it is printed as it stands. -/
theorem chars_source {excerpt cut : Option (List Run)}
    (h : charsOf charset (excerptPieces excerpt) = charsOf charset (excerptPieces cut))
    (hue : String → String) (severity other : Severity) (gutter line : Nat) (bracket : Bracket) :
    (source line (bracket.recolour hue) excerpt).chars charset ⟨severity, gutter⟩ =
      (source line bracket cut).chars charset ⟨other, gutter⟩ := by
  let lead (f : Frame) (b : Bracket) : List Piece := f.numberGutter line ++ .text " " :: b.pieces
  have hlead : charsOf charset (lead ⟨severity, gutter⟩ (bracket.recolour hue)) =
      charsOf charset (lead ⟨other, gutter⟩ bracket) := by
    refine charsOf_congr ?_ charset
    simp only [lead, List.map_append, List.map_cons, Bracket.inks_recolour]
    rfl
  have hhead (f : Frame) (b : Bracket) (excerpt : Option (List Run)) :
      charsOf charset ((source line b excerpt).head f) =
        charsOf charset (lead f b) ++ charsOf charset (excerptPieces excerpt) :=
    charsOf_append ..
  exact chars_congr (by rw [hhead, hhead, hlead, h]) rfl

/-- A row that is no title prints what it printed, in other colours and for
markers with other roles. -/
theorem chars_fade {row : Row} (h : ∀ message, row ≠ .title message) (hue : String → String)
    (severity other : Severity) (gutter : Nat) :
    (row.remark hue Marker.fade id).chars charset ⟨severity, gutter⟩ =
      row.chars charset ⟨other, gutter⟩ := by
  have hplain (style style' : Style) (d : Document) :
      (d.restyle style).plain = (d.restyle style').plain := by
    simp [Document.plain, Document.restyle, Fragment.restyle]
  cases row with
  | title message => exact absurd rfl (h message)
  | source line bracket excerpt => exact chars_source rfl hue severity other gutter line bracket
  | underline line bracket strokes =>
    refine chars_congr (charsOf_congr ?_ charset) rfl
    simp only [remark, head, List.map_append, List.map_cons, Bracket.inks_recolour, inks_strokes]
    rfl
  | label line bracket pipes shared e =>
    refine chars_congr (charsOf_congr ?_ charset) (hplain _ _ e.2.message)
    simp only [remark, head, List.map_append, List.map_cons, Bracket.inks_recolour]
    rw [remarkEntry, inks_pipes]
    rfl
  | trailerHead colour => exact chars_congr (charsOf_congr rfl charset) rfl
  | trailer last e => exact chars_congr (charsOf_congr rfl charset) rfl
  | hint message => exact chars_congr (charsOf_congr rfl charset) rfl
  | pointer | rail | gap | footer => exact chars_congr (charsOf_congr rfl charset) rfl

end Row

-- ---------------------------------------------------------------------------
-- Sheets in other colours
-- ---------------------------------------------------------------------------

/-- The one colour of a faded report. -/
def faded (_ : String) : String := Severity.error.colour

theorem colour_fade (m : Marker) : m.fade.colour .error = faded (m.colour severity) := rfl

theorem ofReport_fade (r : Report) :
    Sheet.ofReport r.fade = (Sheet.ofReport r).remark .error Marker.fade :=
  congrArg (Sheet.mk .error) (sortEntries_remark Marker.fade r.markers.entries)

namespace Sheet

variable (s : Sheet) (sources : Sources) (line : Nat)

theorem text?_remark (severity : Severity) (g : Marker → Marker) :
    (s.remark severity g).text? sources line = s.text? sources line := by
  rw [text?, text?, touching_remark, List.head?_map]
  cases (s.touching line).head? <;> rfl

theorem charsOf_excerpt_congr {s other : Sheet}
    (h : s.text? sources line = other.text? sources line) (charset : Charset) :
    charsOf charset (excerptPieces (s.excerpt sources line)) =
      charsOf charset (excerptPieces (other.excerpt sources line)) := by
  cases ho : other.text? sources line with
  | none => rw [excerpt_eq, excerpt_eq, h, ho, Option.map_none, Option.map_none]
  | some text => rw [charsOf_excerpt (h.trans ho), charsOf_excerpt ho]

theorem frame_fade : (s.remark .error Marker.fade).frame = ⟨.error, s.gutter⟩ :=
  congrArg (Frame.mk .error) (gutter_remark .error Marker.fade s)

theorem line?_of_mem_markRows (h : row ∈ s.markRows line) : row.line? = some line := by
  have hrow : row ∈ s.lineRows [] line := List.mem_cons_of_mem _ h
  exact line?_of_mem_lineRows hrow

variable (charset : Charset)

/-- Rows of markers print what they printed. -/
theorem chars_map_fade (rows : List Row) (h : ∀ message, .title message ∉ rows) :
    (rows.map (Row.remark faded Marker.fade id)).map (Row.chars charset ⟨.error, s.gutter⟩) =
      rows.map (Row.chars charset s.frame) := by
  rw [List.map_map]
  refine List.map_congr_left fun row hrow => Row.chars_fade ?_ faded ..
  rintro message rfl
  exact h message hrow

theorem chars_lineRows_fade : ((s.remark .error Marker.fade).lineRows sources line).map
    (Row.chars charset ⟨.error, s.gutter⟩) =
      (s.lineRows sources line).map (Row.chars charset s.frame) := by
  have htext := charsOf_excerpt_congr sources line (text?_remark s sources line .error Marker.fade)
    charset
  have hmarks : ∀ message, .title message ∉ s.markRows line :=
    fun message hm => nomatch line?_of_mem_markRows s line hm
  have hsource := Row.chars_source htext faded .error s.severity s.gutter line
    (s.sourceBracket line)
  rw [lineRows_eq, lineRows_eq, sourceBracket_remark colour_fade,
    markRows_remark colour_fade line id, List.map_cons, List.map_cons,
    chars_map_fade s charset _ hmarks]
  exact List.cons_eq_cons.mpr ⟨hsource, rfl⟩

end Sheet

-- ---------------------------------------------------------------------------
-- Layouts
-- ---------------------------------------------------------------------------

/-- The rows behind the pointer. -/
def bodyRows (sources : Sources) (r : Report) : List Row :=
  .rail :: (Sheet.ofReport r).lineNumbers.flatMap ((Sheet.ofReport r).lineRows sources) ++
    (Sheet.ofReport r).trailerRows ++ hintRows r ++ [.footer]

theorem rows_eq (sources : Sources) (r : Report) : rows sources r = .title r.message ::
    .pointer (headerSpan (Sheet.ofReport r).entries) :: bodyRows sources r := rfl

theorem chars_bodyRows_fade (charset : Charset) (sources : Sources) (r : Report) :
    (bodyRows sources r.fade).map (Row.chars charset (Sheet.ofReport r.fade).frame) =
      (bodyRows sources r).map (Row.chars charset (Sheet.ofReport r).frame) := by
  have hhints : hintRows r.fade = (hintRows r).map (Row.remark faded Marker.fade id) := by
    have hempty : r.fade.markers.isEmpty = r.markers.isEmpty := List.isEmpty_map
    have hsame : r.fade.hints = r.hints := rfl
    rw [hintRows, hintRows, hempty, hsame]
    cases r.hints.isEmpty || r.markers.isEmpty with
    | true => rfl
    | false => simp [Row.remark, Function.comp_def]
  have htrailer : ∀ message, .title message ∉ (Sheet.ofReport r).trailerRows := by
    intro message hm
    obtain ⟨e, -, he | ⟨last, he⟩⟩ := Sheet.mem_trailerRows hm <;> cases he
  have hhint : ∀ message, .title message ∉ hintRows r := by
    intro message hm
    obtain he | ⟨hint, -, he⟩ := mem_hintRows hm <;> cases he
  simp only [bodyRows, ofReport_fade, Sheet.frame_fade, Sheet.lineNumbers_remark,
    Sheet.trailerRows_remark colour_fade id, hhints, List.map_append, List.map_cons,
    List.map_flatMap, Sheet.chars_lineRows_fade, Sheet.chars_map_fade _ charset _ htrailer,
    Sheet.chars_map_fade _ charset _ hhint]
  rfl

/-- The title with a label. Each further line of the message moves with the
length of that label. -/
def titleText (label : List Char) (message : Document) : List Char :=
  '[' :: label ++ ']' :: ':' :: ' ' :: Text.hangEach
    ((Document.indentsFrom 5 message.hang.fragments).map (· + label.length)) message.wording

/-- The pointer to a span, behind a gutter of the given width. -/
def pointerText (charset : Charset) (gutter : Nat) (span : Span) : List Char :=
  List.replicate (gutter + 2) ' ' ++ (Glyph.fileArrow.draw charset).toList ++
    ' ' :: span.text.toList

theorem chars_title (charset : Charset) (f : Frame) (message : Document) :
    (Row.title message).chars charset f = titleText f.severity.label.toList message := by
  let label := f.severity.label.toList
  have hhead : charsOf charset ((Row.title message).head f) = '[' :: label ++ [']', ':', ' '] := by
    simp [charsOf, Row.head, Piece.draw, Piece.text, Ink.draw, label]
  have hfree : '\n' ∉ '[' :: label ++ [']', ':', ' '] := by
    rw [← hhead, ← List.count_eq_zero, Row.count_head]
    rfl
  have hcolumn : (Row.title message).messageColumn charset f = 5 + label.length := by
    rw [Row.messageColumn_eq, hhead, Text.advance_of_newline_free hfree]
    simp
    omega
  rw [Row.chars, Row.messageIndents, hcolumn, hhead]
  have hindents := message.indentsFrom_hang_add (show (1 : Int) ≤ 5 by decide) label.length
  simp [Row.message, hindents, titleText, label]

theorem chars_pointer (charset : Charset) (f : Frame) (span : Span) :
    (Row.pointer span).chars charset f = pointerText charset f.gutter span := by
  simp [Row.chars, Row.message, Document.wording, Text.hangEach, Row.head, charsOf,
    Frame.blankGutter, Piece.blanks, Piece.draw, Piece.text, Piece.glyph, Ink.draw, pointerText]

/-- Title and pointer are the first rows that a report prints. -/
theorem printed_body (charset : Charset) (sources : Sources) (r : Report) :
    (r.layout charset sources).renderPlain.toList =
      titleText r.severity.label.toList r.message ++ '\n' ::
        (pointerText charset (Sheet.ofReport r).gutter (headerSpan (Sheet.ofReport r).entries) ++
          '\n' :: Text.joinLines
            ((bodyRows sources r).map (Row.chars charset (Sheet.ofReport r).frame))) := by
  rw [printed_rows, rows_eq, List.map_cons, List.map_cons, Text.joinLines_cons_cons, chars_title,
    chars_pointer]
  rfl

/-- Reports with the same message, the same hints and the same marker messages
at the same spans are printed with the same rows behind the pointer. Pointers
differ at most in the span that they name, and titles in their label and in the
indents that its length adds. -/
theorem layout_roles {a b : Report} (hmessage : a.message = b.message) (hhints : a.hints = b.hints)
    (hmarkers : ∀ span,
      (a.markers.get? span).map Marker.message = (b.markers.get? span).map Marker.message)
    (charset : Charset) (sources : Sources) :
    ∃ gutter rest, ∀ r ∈ [a, b], (r.layout charset sources).renderPlain.toList =
      titleText r.severity.label.toList a.message ++ '\n' ::
        (pointerText charset gutter (headerSpan (Sheet.ofReport r).entries) ++ '\n' :: rest) := by
  have hfade : a.fade == b.fade := Report.fade_beq hmessage hhints hmarkers
  have hsheet := ofReport_eq_of_beq hfade
  have hbody : bodyRows sources a.fade = bodyRows sources b.fade := by
    have hrows := rows_eq_of_beq hfade sources
    rw [rows_eq, rows_eq] at hrows
    exact (List.cons.inj (List.cons.inj hrows).2).2
  have hchars : (bodyRows sources b).map (Row.chars charset (Sheet.ofReport b).frame) =
      (bodyRows sources a).map (Row.chars charset (Sheet.ofReport a).frame) := by
    rw [← chars_bodyRows_fade charset sources b, ← chars_bodyRows_fade charset sources a, hbody,
      hsheet]
  have hgutter : (Sheet.ofReport b).gutter = (Sheet.ofReport a).gutter := by
    have hsame := congrArg Sheet.gutter hsheet
    rw [ofReport_fade, ofReport_fade, Sheet.gutter_remark, Sheet.gutter_remark] at hsame
    exact hsame.symm
  refine ⟨(Sheet.ofReport a).gutter, Text.joinLines ((bodyRows sources a).map
    (Row.chars charset (Sheet.ofReport a).frame)), fun r hr => ?_⟩
  obtain rfl | rfl : r = a ∨ r = b := by simpa using hr
  · exact printed_body charset sources r
  · rw [printed_body, hgutter, hchars, hmessage]

/-- The report with one marker as a warning, its marker a suggestion. -/
def oneSuggestion : Report :=
  { oneMarker with
    severity := .warning
    markers := oneMarker.markers.remark fun m => { m with role := .suggestion } }

theorem layout_roles_oneSuggestion :
    (∀ span, (oneMarker.markers.get? span).map Marker.message =
      (oneSuggestion.markers.get? span).map Marker.message) ∧
    ∃ gutter rest, ∀ r ∈ [oneMarker, oneSuggestion],
      (r.layout .ascii oneText).renderPlain.toList =
        titleText r.severity.label.toList oneMarker.message ++ '\n' ::
          (pointerText .ascii gutter (headerSpan (Sheet.ofReport r).entries) ++ '\n' :: rest) := by
  have hmarkers : ∀ span, (oneMarker.markers.get? span).map Marker.message =
      (oneSuggestion.markers.get? span).map Marker.message := by
    intro span
    rw [oneSuggestion, Markers.get?_remark, Option.map_map]
    rfl
  have hmessage : oneMarker.message = oneSuggestion.message := rfl
  exact ⟨hmarkers, layout_roles hmessage rfl hmarkers .ascii oneText⟩

end Layout

end SpanReport
