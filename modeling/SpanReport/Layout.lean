import SpanReport.Layout.Sheet

/-!
# The layout of a report

A report is laid out as a title, a pointer to its header position, the
displayed source lines with their underlines and labels, the messages of the
markers over several lines, the hints, and a footer. The rows are the same in
both charsets, and a line feed stands between any two of them.
-/

namespace SpanReport.Layout

/-- Hints are shown only beside markers. -/
def hintRows (r : Report) : List Row :=
  if r.hints.isEmpty || r.markers.isEmpty then [] else .gap :: r.hints.map .hint

def rows (sources : Sources) (r : Report) : List Row :=
  let s := Sheet.ofReport r
  [.title r.message, .pointer (headerSpan s.entries), .rail] ++
    s.lineNumbers.flatMap (s.lineRows sources) ++ s.trailerRows ++ hintRows r ++ [.footer]

/-- The rows that show a part of a line. -/
def partRows (sources : Sources) (r : Report) (line : Nat) (part : Part) : List Row :=
  (rows sources r).filter (·.part? == some (line, part))

def pieces (sources : Sources) (r : Report) : List Piece :=
  List.intercalate [.newline] ((rows sources r).map (Row.pieces (Sheet.ofReport r).frame))

structure Summary where
  severity : Severity
  markers : Nat
  multiline : Nat
  lines : Nat
  gutter : Nat

def summary (r : Report) : Summary :=
  let s := Sheet.ofReport r
  ⟨s.severity, s.entries.length, s.multiline.length, s.lineNumbers.length, s.gutter⟩

end Layout

/-- A report laid out in a charset, beside the lines of its sources. -/
def Report.layout (charset : Charset) (sources : Sources) (r : Report) : Document :=
  ⟨(Layout.pieces sources r).map (Layout.Piece.draw charset)⟩

end SpanReport
