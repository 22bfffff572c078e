import SpanReport.Layout.Row
import SpanReport.Report

/-!
# Sheets

A sheet holds a report's markers in the order of their spans and answers what
each source line shows of them: which markers lie on it, in which colours its
characters, its underline and its bracket are drawn, and how its labels hang.
-/

namespace SpanReport

abbrev Sources := List (String × List String)

/-- A line of a file, counted from one. -/
def Sources.line? (sources : Sources) (file : String) : Nat → Option String
  | 0 => none
  | n + 1 => (sources.lookup file).bind (·[n]?)

namespace Layout

def sortEntries (entries : List Entry) : List Entry :=
  entries.mergeSort fun a b => a.1.isBefore b.1

def headerSpan (entries : List Entry) : Span :=
  match entries.find? (·.2.role == .primary) with
  | some (span, _) => span
  | none => Span.nowhere

/-- Wide enough for every line number, and at least three columns. -/
def gutterWidth (spans : List Span) : Nat :=
  spans.foldl (fun width s => max width (Nat.repr s.stop.line).length) 3

/-- The numbers of two strictly ascending lists in one such list. -/
def uniteLines : List Nat → List Nat → List Nat
  | [], ns => ns
  | ms, [] => ms
  | m :: ms, n :: ns =>
    if m < n then m :: uniteLines ms (n :: ns)
    else if n < m then n :: uniteLines (m :: ms) ns
    else m :: uniteLines ms ns

structure Sheet where
  severity : Severity
  entries : List Entry

namespace Sheet

def ofReport (r : Report) : Sheet := ⟨r.severity, sortEntries r.markers.entries⟩

def colour (s : Sheet) (e : Entry) : String := e.2.colour s.severity

def gutter (s : Sheet) : Nat := gutterWidth (s.entries.map Prod.fst)

def frame (s : Sheet) : Frame := ⟨s.severity, s.gutter⟩

def lineNumbers (s : Sheet) : List Nat :=
  (s.entries.map (·.1.lines)).foldr uniteLines []

def multiline (s : Sheet) : List Entry := s.entries.filter (!·.1.isInline)

-- ---------------------------------------------------------------------------
-- The markers of a line
-- ---------------------------------------------------------------------------

def touching (s : Sheet) (line : Nat) : List Entry := s.entries.filter (·.1.touches line)

def inline (s : Sheet) (line : Nat) : List Entry := (s.touching line).filter (·.1.isInline)

/-- The markers over several lines that begin or end in the line. -/
def bounding (s : Sheet) (line : Nat) : List Entry :=
  s.multiline.filter fun e => e.1.start.line == line || e.1.stop.line == line

/-- The markers that begin before the line and end after it. -/
def enclosing (s : Sheet) (line : Nat) : List Entry :=
  s.multiline.filter fun e => decide (e.1.start.line < line) && decide (line < e.1.stop.line)

/-- The colour of the bar that goes on through the rows of the line. -/
def barColour? (s : Sheet) (line : Nat) : Option String :=
  (s.bounding line ++ s.enclosing line).head?.map s.colour

def bracket (s : Sheet) (line : Nat) : Bracket :=
  match s.barColour? line with
  | some colour => .through colour
  | none => if s.multiline.isEmpty then .absent else .blank

/-- The bracket beside the source text. It opens where the first of all
markers over several lines begins. -/
def sourceBracket (s : Sheet) (line : Nat) : Bracket :=
  match s.bounding line with
  | e :: _ =>
    .branch (e.1.stop.line != line && s.multiline.head?.map Prod.fst == some e.1) (s.colour e)
  | [] => s.bracket line

-- ---------------------------------------------------------------------------
-- Source text
-- ---------------------------------------------------------------------------

def colourAt (s : Sheet) (line column : Nat) : Option String :=
  ((s.touching line).find? (·.1.covers line column)).map s.colour

/-- A text cut where the colour of its characters changes. -/
def runs (colourAt : Nat → Option String) (text : List Char) : List Run :=
  let cells := text.mapIdx fun i c => (c, colourAt (i + 1))
  (cells.splitBy fun a b => a.2 == b.2).map fun cells =>
    ⟨String.ofList (cells.map Prod.fst), cells.head?.bind Prod.snd⟩

/-- The line as it stands in the file of the first marker that touches it. -/
def excerpt (s : Sheet) (sources : Sources) (line : Nat) : Option (List Run) := do
  let first ← (s.touching line).head?
  let text ← sources.line? first.1.file line
  return runs (s.colourAt line) text.toList

-- ---------------------------------------------------------------------------
-- Underlines and labels
-- ---------------------------------------------------------------------------

/-- The last marker that covers a column draws it. -/
def strokeAt (s : Sheet) (line column : Nat) : Option Stroke :=
  ((s.inline line).filter (·.1.covers line column)).getLast?.map fun e =>
    ⟨e.1.start.column == column, s.colour e⟩

def lastColumn (entries : List Entry) : Nat :=
  entries.foldl (fun column e => max column e.1.stop.column) 1

def strokes (s : Sheet) (line : Nat) : List (Option Stroke) :=
  (List.range' 1 (lastColumn (s.inline line) - 1)).map (s.strokeAt line)

/-- One pipe for each column at which markers begin, in the colour of the last
of them. The markers come in order. -/
def pipes (s : Sheet) : List Entry → List Pipe
  | [] => []
  | e :: rest =>
    let later := s.pipes rest
    match later with
    | pipe :: _ =>
      if pipe.column = e.1.start.column then later
      else ⟨e.1.start.column, s.colour e⟩ :: later
    | [] => [⟨e.1.start.column, s.colour e⟩]

def labelRow (s : Sheet) (line : Nat) (earlier : List Entry) (e : Entry) : Row :=
  let column := e.1.start.column
  .label line (s.bracket line)
    (s.pipes (earlier.filter fun other => decide (other.1.start.column < column)))
    (earlier.any fun other => other.1.start.column == column) e

/-- The labels of markers, given the last one first. -/
def labelRows (s : Sheet) (line : Nat) : List Entry → List Row
  | [] => []
  | e :: earlier => s.labelRow line earlier.reverse e :: s.labelRows line earlier

def lineRows (s : Sheet) (sources : Sources) (line : Nat) : List Row :=
  let underline :=
    if (s.inline line).isEmpty then []
    else [.underline line (s.bracket line) (s.strokes line)]
  .source line (s.sourceBracket line) (s.excerpt sources line) ::
    underline ++ s.labelRows line (s.inline line).reverse

/-- The messages of the markers over several lines, the last marker first. -/
def trailerRows (s : Sheet) : List Row :=
  match s.multiline with
  | [] => []
  | first :: rest =>
    .trailerHead (s.colour (rest.getLast?.getD first)) ::
      rest.reverse.map (.trailer false) ++ [.trailer true first]

end Sheet

end Layout

end SpanReport
