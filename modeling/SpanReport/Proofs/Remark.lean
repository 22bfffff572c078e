import SpanReport.Proofs.Sheet
import SpanReport.Layout

/-!
# Other markers

Which lines a sheet displays, and how wide its gutter is, depends on its spans
alone. If its markers are replaced so that each colour becomes one other colour,
its rows stay what they are but for those colours and markers. Only the text of
a line is cut anew, since it is cut where its colour changes.
-/

namespace SpanReport

/-- An entry with another marker. -/
def remarkEntry (g : Marker → Marker) (e : Entry) : Entry := (e.1, g e.2)

def Markers.remark (g : Marker → Marker) (ms : Markers) : Markers where
  entries := ms.entries.map (remarkEntry g)
  nodup := by
    rw [List.map_map]
    exact ms.nodup

theorem Markers.get?_remark (g : Marker → Marker) (ms : Markers) (span : Span) :
    (ms.remark g).get? span = (ms.get? span).map g := by
  have hlookup (entries : List Entry) :
      (entries.map (remarkEntry g)).lookup span = (entries.lookup span).map g := by
    induction entries with
    | nil => rfl
    | cons e rest ih =>
      obtain ⟨other, m⟩ := e
      simp only [List.map_cons, remarkEntry, List.lookup_cons, ih]
      cases span == other <;> rfl
  exact hlookup ms.entries

namespace Layout

def Bracket.recolour (hue : String → String) : Bracket → Bracket
  | through colour => through (hue colour)
  | branch opens colour => branch opens (hue colour)
  | bracket => bracket

def Stroke.recolour (hue : String → String) (stroke : Stroke) : Stroke :=
  { stroke with colour := hue stroke.colour }

def Pipe.recolour (hue : String → String) (pipe : Pipe) : Pipe :=
  { pipe with colour := hue pipe.colour }

/-- A row with other colours, markers and words, its source text left alone. -/
def Row.remark (hue : String → String) (g : Marker → Marker) (word : Document → Document) :
    Row → Row
  | title message => title (word message)
  | source line bracket excerpt => source line (bracket.recolour hue) excerpt
  | underline line bracket strokes =>
    underline line (bracket.recolour hue) (strokes.map (Option.map (Stroke.recolour hue)))
  | label line bracket pipes shared e =>
    label line (bracket.recolour hue) (pipes.map (Pipe.recolour hue)) shared (remarkEntry g e)
  | trailerHead colour => trailerHead (hue colour)
  | trailer last e => trailer last (remarkEntry g e)
  | hint message => hint (word message)
  | row => row

theorem sortEntries_remark (g : Marker → Marker) (entries : List Entry) :
    sortEntries (entries.map (remarkEntry g)) = (sortEntries entries).map (remarkEntry g) := by
  rw [sortEntries, sortEntries, List.map_mergeSort (f := remarkEntry g)]
  exact fun _ _ _ _ => rfl

namespace Sheet

def remark (severity : Severity) (g : Marker → Marker) (s : Sheet) : Sheet :=
  ⟨severity, s.entries.map (remarkEntry g)⟩

/-- What stands below the text of a displayed line. -/
def markRows (s : Sheet) (line : Nat) : List Row :=
  (if (s.inline line).isEmpty then []
    else [.underline line (s.bracket line) (s.strokes line)]) ++
    s.labelRows line (s.inline line).reverse

theorem lineRows_eq (s : Sheet) (sources : Sources) (line : Nat) : s.lineRows sources line =
    .source line (s.sourceBracket line) (s.excerpt sources line) :: s.markRows line := rfl

-- ---------------------------------------------------------------------------
-- Spans
-- ---------------------------------------------------------------------------

section
variable (severity : Severity) (g : Marker → Marker) (s : Sheet) (line : Nat)

theorem gutter_remark : (s.remark severity g).gutter = s.gutter := by
  have hspans : (s.remark severity g).entries.map Prod.fst = s.entries.map Prod.fst :=
    List.map_map ..
  rw [gutter, hspans]
  rfl

theorem lineNumbers_remark : (s.remark severity g).lineNumbers = s.lineNumbers := by
  have hlines : (s.remark severity g).entries.map (·.1.lines) = s.entries.map (·.1.lines) :=
    List.map_map ..
  rw [lineNumbers, hlines]
  rfl

theorem multiline_remark :
    (s.remark severity g).multiline = s.multiline.map (remarkEntry g) := List.filter_map

theorem touching_remark :
    (s.remark severity g).touching line = (s.touching line).map (remarkEntry g) := List.filter_map

theorem inline_remark :
    (s.remark severity g).inline line = (s.inline line).map (remarkEntry g) := by
  rw [inline, touching_remark]
  exact List.filter_map

theorem bounding_remark :
    (s.remark severity g).bounding line = (s.bounding line).map (remarkEntry g) := by
  rw [bounding, multiline_remark]
  exact List.filter_map

theorem enclosing_remark :
    (s.remark severity g).enclosing line = (s.enclosing line).map (remarkEntry g) := by
  rw [enclosing, multiline_remark]
  exact List.filter_map

end

-- ---------------------------------------------------------------------------
-- Colours
-- ---------------------------------------------------------------------------

section
variable {severity : Severity} {g : Marker → Marker} {hue : String → String} {s : Sheet}
  (h : ∀ m, (g m).colour severity = hue (m.colour s.severity)) (line : Nat)
include h

theorem map_colour_remark (found : Option Entry) :
    (found.map (remarkEntry g)).map (s.remark severity g).colour =
      (found.map s.colour).map hue := by
  cases found with
  | none => rfl
  | some e => exact congrArg some (h e.2)

theorem bracket_remark :
    (s.remark severity g).bracket line = (s.bracket line).recolour hue := by
  have hbar : (s.remark severity g).barColour? line = (s.barColour? line).map hue := by
    rw [barColour?, bounding_remark, enclosing_remark, ← List.map_append, List.head?_map]
    exact map_colour_remark h _
  rw [bracket, bracket, hbar, multiline_remark, List.isEmpty_map]
  cases s.barColour? line with
  | some colour => rfl
  | none =>
    simp only [Option.map_none]
    cases s.multiline.isEmpty <;> rfl

theorem sourceBracket_remark :
    (s.remark severity g).sourceBracket line = (s.sourceBracket line).recolour hue := by
  rw [sourceBracket, sourceBracket, bounding_remark]
  cases s.bounding line with
  | nil => exact bracket_remark h line
  | cons e rest =>
    have hcolour : (s.remark severity g).colour (remarkEntry g e) = hue (s.colour e) := h e.2
    simp only [List.map_cons, multiline_remark, List.head?_map, Option.map_map, hcolour]
    rfl

theorem colourAt_remark (column : Nat) :
    (s.remark severity g).colourAt line column = (s.colourAt line column).map hue := by
  rw [colourAt, touching_remark, List.find?_map]
  exact map_colour_remark h _

theorem strokes_remark : (s.remark severity g).strokes line =
    (s.strokes line).map (Option.map (Stroke.recolour hue)) := by
  have hstroke (column : Nat) : (s.remark severity g).strokeAt line column =
      (s.strokeAt line column).map (Stroke.recolour hue) := by
    rw [strokeAt, strokeAt, inline_remark, List.filter_map, List.getLast?_map, Option.map_map,
      Option.map_map]
    refine Option.map_congr fun e _ => ?_
    exact congrArg (Stroke.mk (e.1.start.column == column)) (h e.2)
  have hlast : lastColumn ((s.inline line).map (remarkEntry g)) = lastColumn (s.inline line) :=
    List.foldl_map
  rw [strokes, strokes, inline_remark, hlast, List.map_map]
  exact List.map_congr_left fun column _ => hstroke column

theorem pipes_remark (entries : List Entry) :
    (s.remark severity g).pipes (entries.map (remarkEntry g)) =
      (s.pipes entries).map (Pipe.recolour hue) := by
  induction entries with
  | nil => rfl
  | cons e rest ih =>
    have hpipe : Pipe.mk (remarkEntry g e).1.start.column
        ((s.remark severity g).colour (remarkEntry g e)) =
          (Pipe.mk e.1.start.column (s.colour e)).recolour hue :=
      congrArg (Pipe.mk e.1.start.column) (h e.2)
    rw [List.map_cons, pipes, pipes, ih, hpipe]
    cases s.pipes rest with
    | nil => rfl
    | cons pipe later =>
      by_cases hc : pipe.column = e.1.start.column <;>
        simp [Pipe.recolour, remarkEntry, hc]

variable (word : Document → Document)

theorem labelRow_remark (earlier : List Entry) (e : Entry) :
    (s.remark severity g).labelRow line (earlier.map (remarkEntry g)) (remarkEntry g e) =
      (s.labelRow line earlier e).remark hue g word := by
  rw [labelRow, bracket_remark h, List.filter_map, pipes_remark h, List.any_map]
  rfl

theorem labelRows_remark (entries : List Entry) :
    (s.remark severity g).labelRows line (entries.map (remarkEntry g)) =
      (s.labelRows line entries).map (Row.remark hue g word) := by
  induction entries with
  | nil => rfl
  | cons e rest ih =>
    rw [List.map_cons, labelRows, ih, ← List.map_reverse, labelRow_remark h line word]
    rfl

theorem markRows_remark : (s.remark severity g).markRows line =
    (s.markRows line).map (Row.remark hue g word) := by
  rw [markRows, markRows, bracket_remark h, strokes_remark h, inline_remark, List.isEmpty_map,
    ← List.map_reverse, labelRows_remark h line word, List.map_append]
  split <;> rfl

theorem trailerRows_remark :
    (s.remark severity g).trailerRows = s.trailerRows.map (Row.remark hue g word) := by
  rw [trailerRows, trailerRows, multiline_remark]
  cases s.multiline with
  | nil => rfl
  | cons first rest =>
    have hcolour (e : Entry) : (s.remark severity g).colour (remarkEntry g e) =
        hue (s.colour e) := h e.2
    simp only [List.map_cons, List.map_append, List.map_map, List.getLast?_map, ← List.map_reverse,
      Option.getD_map, hcolour]
    rfl

end

end Sheet

end Layout

end SpanReport
