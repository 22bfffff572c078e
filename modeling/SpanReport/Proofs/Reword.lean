import SpanReport.Proofs.Remark

/-!
# Other words

What a layout does with markers and rows does not depend on their messages.
`rows_reword`: replacing every message of a report by another one replaces the
messages of its rows and leaves everything else of them as it is.
-/

namespace SpanReport

def Marker.reword (g : Document → Document) (m : Marker) : Marker :=
  { m with message := g m.message }

/-- An entry with another message. -/
def rewordEntry (g : Document → Document) (e : Entry) : Entry := (e.1, e.2.reword g)

def Markers.reword (g : Document → Document) (ms : Markers) : Markers where
  entries := ms.entries.map (rewordEntry g)
  nodup := by
    rw [List.map_map]
    exact ms.nodup

/-- Every message of a report replaced, title and hints with them. -/
def Report.reword (g : Document → Document) (r : Report) : Report :=
  { r with message := g r.message, markers := r.markers.reword g, hints := r.hints.map g }

namespace Layout

def Sheet.reword (g : Document → Document) (s : Sheet) : Sheet :=
  { s with entries := s.entries.map (rewordEntry g) }

def Row.reword (g : Document → Document) : Row → Row
  | title message => title (g message)
  | label line bracket pipes shared e => label line bracket pipes shared (rewordEntry g e)
  | trailer last e => trailer last (rewordEntry g e)
  | hint message => hint (g message)
  | row => row

/-- With other words, colours stay as they are. -/
theorem Row.remark_id (g : Document → Document) :
    Row.remark id (Marker.reword g) g = Row.reword g := by
  have hbracket (b : Bracket) : b.recolour id = b := by cases b <;> rfl
  have hstrokes : Option.map (Stroke.recolour id) = id := Option.map_id
  have hpipes : Pipe.recolour id = id := rfl
  funext row
  cases row <;> simp [Row.remark, Row.reword, remarkEntry, rewordEntry, hbracket, hstrokes, hpipes]

variable (g : Document → Document)

theorem ofReport_reword (r : Report) :
    Sheet.ofReport (r.reword g) = (Sheet.ofReport r).reword g :=
  congrArg (Sheet.mk r.severity) (sortEntries_remark (Marker.reword g) r.markers.entries)

theorem headerSpan_reword (entries : List Entry) :
    headerSpan (entries.map (rewordEntry g)) = headerSpan entries := by
  rw [headerSpan, headerSpan, List.find?_map]
  have hsame : ((fun e : Entry => e.2.role == .primary) ∘ rewordEntry g) =
      fun e => e.2.role == .primary := rfl
  rw [hsame]
  cases entries.find? (fun e => e.2.role == .primary) <;> rfl

-- ---------------------------------------------------------------------------
-- Sheets
-- ---------------------------------------------------------------------------

namespace Sheet

variable (s : Sheet) (line : Nat)

theorem reword_eq : s.reword g = s.remark s.severity (Marker.reword g) := rfl

theorem frame_reword : (s.reword g).frame = s.frame := by
  rw [frame, reword_eq, gutter_remark]
  rfl

theorem excerpt_reword (sources : Sources) :
    (s.reword g).excerpt sources line = s.excerpt sources line := by
  have hcolour : (s.reword g).colourAt line = s.colourAt line :=
    funext fun column => (colourAt_remark (fun _ => rfl) line column).trans Option.map_id'
  have htouching : (s.reword g).touching line = (s.touching line).map (rewordEntry g) :=
    touching_remark s.severity (Marker.reword g) s line
  rw [excerpt, excerpt, htouching, List.head?_map, hcolour]
  cases (s.touching line).head? <;> rfl

theorem lineRows_reword (sources : Sources) :
    (s.reword g).lineRows sources line = (s.lineRows sources line).map (Row.reword g) := by
  have hunchanged : ∀ m, (Marker.reword g m).colour s.severity = id (m.colour s.severity) :=
    fun _ => rfl
  have hbracket := sourceBracket_remark hunchanged line
  rw [lineRows_eq, excerpt_reword, reword_eq, hbracket, markRows_remark hunchanged line g,
    lineRows_eq, ← Row.remark_id]
  rfl

theorem trailerRows_reword : (s.reword g).trailerRows = s.trailerRows.map (Row.reword g) := by
  rw [← Row.remark_id]
  exact trailerRows_remark (fun _ => rfl) g

end Sheet

-- ---------------------------------------------------------------------------
-- Rows
-- ---------------------------------------------------------------------------

theorem hintRows_reword (r : Report) : hintRows (r.reword g) = (hintRows r).map (Row.reword g) := by
  have hhints : (r.reword g).hints.isEmpty = r.hints.isEmpty := List.isEmpty_map
  have hmarkers : (r.reword g).markers.isEmpty = r.markers.isEmpty := List.isEmpty_map
  rw [hintRows, hintRows, hhints, hmarkers]
  split
  · rfl
  · rw [List.map_cons, Report.reword, List.map_map, List.map_map]
    rfl

theorem rows_reword (sources : Sources) (r : Report) :
    rows sources (r.reword g) = (rows sources r).map (Row.reword g) := by
  have hlines : ((Sheet.ofReport r).reword g).lineRows sources =
      fun line => ((Sheet.ofReport r).lineRows sources line).map (Row.reword g) :=
    funext fun line => Sheet.lineRows_reword g _ line sources
  have hnumbers : ((Sheet.ofReport r).reword g).lineNumbers = (Sheet.ofReport r).lineNumbers :=
    Sheet.lineNumbers_remark ..
  have hheader : headerSpan ((Sheet.ofReport r).reword g).entries =
      headerSpan (Sheet.ofReport r).entries := headerSpan_reword g _
  simp only [rows, ofReport_reword, hnumbers, Sheet.trailerRows_reword,
    hintRows_reword, hlines, hheader, List.map_append, List.map_flatMap]
  rfl

theorem Row.head_reword (f : Frame) (row : Row) : (row.reword g).head f = row.head f := by
  cases row <;> rfl

end Layout

end SpanReport
