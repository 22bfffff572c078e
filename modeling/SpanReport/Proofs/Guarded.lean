import SpanReport.Proofs.Columns

/-!
# Accesses in range

A layout asks lists for their first, last or greatest element and for the one
at an index. Here it is written out once more with look-ups that find nothing
when there is no such element, each behind the test that the layout makes
before it. `layout_eq`: all of them find something, so the result is the layout
itself. A pipe is looked up by its column, among the markers still to come.
-/

namespace SpanReport.Layout.Guarded

open Sheet

-- ---------------------------------------------------------------------------
-- Gutter and brackets
-- ---------------------------------------------------------------------------

def gutter (spans : List Span) : Option Nat :=
  if spans.isEmpty then some 3
  else do
    let highest ← (spans.map (·.stop.line)).max?
    some (max 3 (Nat.repr highest).length)

def barColour? (s : Sheet) (line : Nat) : Option (Option String) :=
  let active := s.bounding line ++ s.enclosing line
  if active.isEmpty then some none
  else do
    let first ← active.head?
    some (some (s.colour first))

def bracket (s : Sheet) (line : Nat) : Option Bracket := do
  match ← barColour? s line with
  | some colour => some (.through colour)
  | none => some (if s.multiline.isEmpty then .absent else .blank)

/-- The first marker over several lines is asked for only if the marker beside
the text does not end in the line. -/
def sourceBracket (s : Sheet) (line : Nat) : Option Bracket :=
  if (s.bounding line).isEmpty then bracket s line
  else do
    let e ← (s.bounding line).head?
    if e.1.stop.line == line then some (.branch false (s.colour e))
    else do
      let first ← s.multiline.head?
      some (.branch (first.1 == e.1) (s.colour e))

-- ---------------------------------------------------------------------------
-- Source text
-- ---------------------------------------------------------------------------

def line? (sources : Sources) (file : String) (line : Nat) : Option (Option String) :=
  match sources.lookup file with
  | none => some none
  | some lines =>
    if 1 ≤ line ∧ line ≤ lines.length then do
      let text ← lines[line - 1]?
      some (some text)
    else some none

def excerpt (s : Sheet) (sources : Sources) (line : Nat) : Option (Option (List Run)) :=
  if (s.touching line).isEmpty then some none
  else do
    let first ← (s.touching line).head?
    let text? ← line? sources first.1.file line
    some (text?.map fun text => runs (s.colourAt line) text.toList)

-- ---------------------------------------------------------------------------
-- Underlines and labels
-- ---------------------------------------------------------------------------

def strokeAt (s : Sheet) (line column : Nat) : Option (Option Stroke) :=
  let covering := (s.inline line).filter (·.1.covers line column)
  if covering.isEmpty then some none
  else do
    let e ← covering.getLast?
    some (some ⟨e.1.start.column == column, s.colour e⟩)

def underlineRows (s : Sheet) (line : Nat) : Option (List Row) :=
  if (s.inline line).isEmpty then some []
  else do
    let bracket ← bracket s line
    let stop ← ((s.inline line).map (·.1.stop.column)).max?
    let strokes ← (List.range' 1 (stop - 1)).mapM (strokeAt s line)
    some [.underline line bracket strokes]

def pipe (s : Sheet) (earlier : List Entry) (column : Nat) : Option Pipe := do
  let owner ← (earlier.filter (·.1.start.column == column)).getLast?
  some ⟨column, s.colour owner⟩

def labelRow (s : Sheet) (line : Nat) (earlier : List Entry) (e : Entry) : Option Row := do
  let column := e.1.start.column
  let before := earlier.filter fun other => decide (other.1.start.column < column)
  let bracket ← bracket s line
  let pipes ← ((s.pipes before).map Pipe.column).mapM (pipe s earlier)
  some (.label line bracket pipes (earlier.any fun other => other.1.start.column == column) e)

/-- The markers wait with the last one first, and that one is taken away as
long as there is any. -/
def labelRows (s : Sheet) (line : Nat) (waiting : List Entry) : Option (List Row) :=
  if waiting.isEmpty then some []
  else do
    let e ← waiting.head?
    let row ← labelRow s line waiting.tail.reverse e
    let rows ← labelRows s line waiting.tail
    some (row :: rows)
termination_by waiting.length
decreasing_by
  cases waiting with
  | nil => contradiction
  | cons e rest => exact Nat.lt_succ_self _

def lineRows (s : Sheet) (sources : Sources) (line : Nat) : Option (List Row) := do
  let bracket ← sourceBracket s line
  let excerpt ← excerpt s sources line
  let underline ← underlineRows s line
  let labels ← labelRows s line (s.inline line).reverse
  some (.source line bracket excerpt :: underline ++ labels)

-- ---------------------------------------------------------------------------
-- Whole layouts
-- ---------------------------------------------------------------------------

def trailerRows (s : Sheet) : Option (List Row) :=
  if s.multiline.isEmpty then some []
  else do
    let last ← s.multiline.getLast?
    let first ← s.multiline.head?
    some (.trailerHead (s.colour last) :: s.multiline.tail.reverse.map (.trailer false) ++
      [.trailer true first])

def rows (sources : Sources) (r : Report) : Option (List Row) := do
  let s := Sheet.ofReport r
  let lines ← s.lineNumbers.mapM (lineRows s sources)
  let trailers ← trailerRows s
  some ([.title r.message, .pointer (headerSpan s.entries), .rail] ++ lines.flatten ++ trailers ++
    hintRows r ++ [.footer])

def layout (charset : Charset) (sources : Sources) (r : Report) : Option Document := do
  let gutter ← gutter ((Sheet.ofReport r).entries.map Prod.fst)
  let rows ← rows sources r
  let pieces := List.intercalate [.newline] (rows.map (Row.pieces ⟨r.severity, gutter⟩))
  some ⟨pieces.map (Piece.draw charset)⟩

-- ---------------------------------------------------------------------------
-- Every access finds something
-- ---------------------------------------------------------------------------

theorem mapM_some {xs : List α} {f : α → Option β} {g : α → β} (h : ∀ x ∈ xs, f x = some (g x)) :
    xs.mapM f = some (xs.map g) := by
  induction xs with
  | nil => rfl
  | cons x xs ih =>
    obtain ⟨hx, hxs⟩ := List.forall_mem_cons.mp h
    rw [List.mapM_cons, hx, ih hxs]
    rfl

theorem exists_max? {xs : List α} (h : xs ≠ []) (f : α → Nat) :
    ∃ x ∈ xs, (xs.map f).max? = some (f x) ∧ ∀ y ∈ xs, f y ≤ f x := by
  have hsome : ((xs.map f).max?).isSome := List.isSome_max?_iff.mpr (mt List.map_eq_nil_iff.mp h)
  obtain ⟨greatest, hmax⟩ := Option.isSome_iff_exists.mp hsome
  obtain ⟨hmem, hle⟩ := List.max?_eq_some_iff.mp hmax
  obtain ⟨x, hx, rfl⟩ := List.mem_map.mp hmem
  exact ⟨x, hx, hmax, List.forall_mem_map.mp hle⟩

/-- A maximum that starts from some number, over the numbers of a list. -/
theorem foldl_max_map (f : α → Nat) (xs : List α) (start : Nat) :
    xs.foldl (fun greatest x => max greatest (f x)) start =
      max start ((xs.map f).max?.getD start) := by
  rw [← List.foldl_max, List.foldl_map]

theorem gutter_eq (spans : List Span) : gutter spans = some (gutterWidth spans) := by
  rw [gutterWidth, foldl_max_map, gutter]
  cases spans with
  | nil => rfl
  | cons span others =>
    obtain ⟨last, hlast, hmax, hle⟩ := exists_max? (List.cons_ne_nil span others) (·.stop.line)
    have hwidth : ((span :: others).map fun s => (Nat.repr s.stop.line).length).max? =
        some (Nat.repr last.stop.line).length := by
      refine List.max?_eq_some_iff.mpr ⟨List.mem_map.mpr ⟨last, hlast, rfl⟩, ?_⟩
      exact List.forall_mem_map.mpr fun s hs => length_repr_le_of_le (hle s hs)
    rw [hwidth, hmax]
    rfl

theorem barColour?_eq (s : Sheet) (line : Nat) : barColour? s line = some (s.barColour? line) := by
  unfold barColour? Sheet.barColour?
  cases s.bounding line ++ s.enclosing line <;> rfl

theorem bracket_eq (s : Sheet) (line : Nat) : bracket s line = some (s.bracket line) := by
  rw [bracket, Sheet.bracket, barColour?_eq]
  cases s.barColour? line <;> rfl

theorem sourceBracket_eq (s : Sheet) (line : Nat) :
    sourceBracket s line = some (s.sourceBracket line) := by
  unfold sourceBracket Sheet.sourceBracket
  cases hb : s.bounding line with
  | nil => exact bracket_eq s line
  | cons e others =>
    have he : e ∈ s.multiline := (List.mem_filter.mp (hb ▸ List.mem_cons_self)).1
    obtain ⟨first, rest, hm⟩ := List.exists_cons_of_ne_nil (List.ne_nil_of_mem he)
    by_cases hl : e.1.stop.line = line
    · simp [hl]
    · simp [hl, hm]

theorem line?_eq (sources : Sources) (file : String) (line : Nat) :
    line? sources file line = some (sources.line? file line) := by
  cases line with
  | zero => cases h : sources.lookup file <;> simp [line?, Sources.line?, h]
  | succ n =>
    simp only [line?, Sources.line?]
    cases sources.lookup file with
    | none => rfl
    | some lines =>
      by_cases h : n + 1 ≤ lines.length
      · have htext : lines[n]? = some lines[n] := List.getElem?_eq_getElem h
        simp [h, htext]
      · have htext : lines[n]? = none := List.getElem?_eq_none (Nat.le_of_not_lt h)
        simp [h, htext]

theorem excerpt_eq (s : Sheet) (sources : Sources) (line : Nat) :
    excerpt s sources line = some (s.excerpt sources line) := by
  rw [Sheet.excerpt_eq, text?, excerpt]
  cases s.touching line with
  | nil => rfl
  | cons first others => simp [line?_eq]

theorem strokeAt_eq (s : Sheet) (line column : Nat) :
    strokeAt s line column = some (s.strokeAt line column) := by
  unfold strokeAt Sheet.strokeAt
  cases (s.inline line).filter (·.1.covers line column) with
  | nil => rfl
  | cons e others => simp [List.getLast?_cons]

theorem max?_stop_column {entries : List Entry} (h : entries ≠ []) :
    (entries.map (·.1.stop.column)).max? = some (lastColumn entries) := by
  rw [lastColumn, foldl_max_map]
  obtain ⟨e, -, hmax, -⟩ := exists_max? h fun e => e.1.stop.column
  rw [hmax, Option.getD_some, Nat.max_eq_right e.1.one_le_column.2]

theorem underlineRows_eq (s : Sheet) (line : Nat) :
    underlineRows s line = some (if (s.inline line).isEmpty then []
      else [.underline line (s.bracket line) (s.strokes line)]) := by
  unfold underlineRows
  split
  · rfl
  · rename_i h
    have hstrokes : (List.range' 1 (lastColumn (s.inline line) - 1)).mapM (strokeAt s line) =
        some (s.strokes line) := mapM_some fun column _ => strokeAt_eq s line column
    rw [bracket_eq, max?_stop_column (by simpa using h)]
    simp [hstrokes]

/-- A pipe before a marker finds its owner among the markers before it. -/
theorem pipe_eq {earlier : List Entry}
    (h : earlier.Pairwise fun a b => a.1.start.column ≤ b.1.start.column)
    (hp : p ∈ s.pipesBefore earlier column) :
    pipe s earlier p.column = some p := by
  obtain ⟨owner, hl, hc⟩ := owner_of_mem_pipesBefore h hp
  rw [pipe, hl]
  simp [hc]

theorem labelRow_eq (h : s.Ordered) (hs : s.inline line = earlier ++ e :: later) :
    labelRow s line earlier e = some (s.labelRow line earlier e) := by
  have hcolumns := h.inline_columns line
  rw [hs, List.pairwise_append] at hcolumns
  have hpipes := mapM_some (f := pipe s earlier ∘ Pipe.column) (g := id)
    fun p (hp : p ∈ s.pipesBefore earlier e.1.start.column) => pipe_eq hcolumns.1 hp
  rw [List.map_id, Sheet.pipesBefore] at hpipes
  simp [labelRow, Sheet.labelRow, bracket_eq, hpipes]

/-- Each of the markers that wait is drawn over those that wait behind it. -/
theorem labelRows_eq (h : s.Ordered) (hs : (s.inline line).reverse = before ++ waiting) :
    labelRows s line waiting = some (s.labelRows line waiting) := by
  induction waiting generalizing before with
  | nil => simp [labelRows, Sheet.labelRows]
  | cons e rest ih =>
    have hrest : (s.inline line).reverse = (before ++ [e]) ++ rest := by simp [hs]
    have hinline : s.inline line = rest.reverse ++ e :: before.reverse := by
      rw [← List.reverse_reverse (s.inline line), hs]
      simp
    rw [labelRows, Sheet.labelRows]
    simp [labelRow_eq h hinline, ih hrest]

theorem lineRows_eq (h : s.Ordered) (sources : Sources) (line : Nat) :
    lineRows s sources line = some (s.lineRows sources line) := by
  have hlabels : labelRows s line (s.inline line).reverse = some _ :=
    labelRows_eq h (List.nil_append _).symm
  simp [lineRows, Sheet.lineRows, sourceBracket_eq, excerpt_eq, underlineRows_eq, hlabels]

theorem trailerRows_eq (s : Sheet) : trailerRows s = some s.trailerRows := by
  unfold trailerRows Sheet.trailerRows
  cases s.multiline with
  | nil => rfl
  | cons first rest => simp [List.getLast?_cons]

theorem rows_eq (sources : Sources) (r : Report) :
    rows sources r = some (Layout.rows sources r) := by
  have hlines : (Sheet.ofReport r).lineNumbers.mapM (lineRows (Sheet.ofReport r) sources) =
      some _ := mapM_some fun line _ => lineRows_eq (ofReport_ordered r) sources line
  simp [rows, Layout.rows, hlines, trailerRows_eq, List.flatMap]

/-- No access of a layout is out of range, whatever the report and its sources. -/
theorem layout_eq (charset : Charset) (sources : Sources) (r : Report) :
    layout charset sources r = some (r.layout charset sources) := by
  simp only [layout, gutter_eq, rows_eq, Report.layout, pieces]
  rfl

end SpanReport.Layout.Guarded
