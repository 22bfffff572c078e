/-!
# Spans

A span is a half-open range of source text: from the character at its start
up to, and without, the character at its stop. Lines and columns count from
one and a span does not end before it begins. Spans are ordered by start, then
stop, then file name.
-/

namespace SpanReport

structure Point where
  line : Nat
  column : Nat
  deriving DecidableEq, Repr, Inhabited

def Point.Before (a b : Point) : Prop :=
  a.line < b.line ∨ a.line = b.line ∧ a.column ≤ b.column

instance (a b : Point) : Decidable (a.Before b) := by
  unfold Point.Before
  infer_instance

structure Span where
  file : String
  start : Point
  stop : Point
  one_le_line : 1 ≤ start.line
  one_le_column : 1 ≤ start.column ∧ 1 ≤ stop.column
  start_before_stop : start.Before stop
  deriving DecidableEq, Repr

structure Coordinates where
  beginLine : Int
  beginColumn : Int
  endLine : Int
  endColumn : Int
  deriving DecidableEq, Repr

inductive SpanFault
  | coordinateBelowOne
  | endsBeforeBegin
  deriving DecidableEq, Repr

structure InvalidSpan where
  fault : SpanFault
  coordinates : Coordinates
  file : String
  deriving DecidableEq, Repr

/-- How a place is written: the file, then begin and end. -/
def Coordinates.text (c : Coordinates) (file : String) : String :=
  file ++ "@" ++ Int.repr c.beginLine ++ ":" ++ Int.repr c.beginColumn ++
    "-" ++ Int.repr c.endLine ++ ":" ++ Int.repr c.endColumn

def SpanFault.message : SpanFault → String
  | .coordinateBelowOne => "coordinates must be >= 1"
  | .endsBeforeBegin => "span ends before it begins"

def InvalidSpan.message (e : InvalidSpan) : String :=
  e.fault.message ++ " (" ++ e.coordinates.text e.file ++ ")"

namespace Span

/-- A coordinate below one is reported before a span that ends too early. -/
def ofCoordinates (c : Coordinates) (file : String) : Except InvalidSpan Span :=
  if h : 1 ≤ c.beginLine ∧ 1 ≤ c.beginColumn ∧ 1 ≤ c.endLine ∧ 1 ≤ c.endColumn then
    let start : Point := ⟨c.beginLine.toNat, c.beginColumn.toNat⟩
    let stop : Point := ⟨c.endLine.toNat, c.endColumn.toNat⟩
    if ordered : start.Before stop then
      .ok ⟨file, start, stop, by simp only [start]; omega, by simp only [start, stop]; omega, ordered⟩
    else .error ⟨.endsBeforeBegin, c, file⟩
  else .error ⟨.coordinateBelowOne, c, file⟩

/-- The span of a report that has no primary marker. -/
def nowhere : Span :=
  ⟨"<no-file>", ⟨1, 1⟩, ⟨1, 1⟩, by decide, by decide, by decide⟩

def isInline (s : Span) : Bool := s.start.line == s.stop.line

def covers (s : Span) (line column : Int) : Bool :=
  if s.isInline then
    line == s.start.line && decide (s.start.column ≤ column) && decide (column < s.stop.column)
  else if line = s.start.line then decide (s.start.column ≤ column)
  else if line = s.stop.line then decide (column < s.stop.column)
  else decide (s.start.line < line) && decide (line < s.stop.line)

def touches (s : Span) (line : Nat) : Bool :=
  decide (s.start.line ≤ line) && decide (line ≤ s.stop.line)

def lines (s : Span) : List Nat := List.range' s.start.line (s.stop.line + 1 - s.start.line)

def text (s : Span) : String :=
  s.file ++ "@" ++ Nat.repr s.start.line ++ ":" ++ Nat.repr s.start.column ++
    "-" ++ Nat.repr s.stop.line ++ ":" ++ Nat.repr s.stop.column

-- ---------------------------------------------------------------------------
-- Order
-- ---------------------------------------------------------------------------

def cmp (a b : Span) : Ordering :=
  (compare a.start.line b.start.line).then <|
  (compare a.start.column b.start.column).then <|
  (compare a.stop.line b.stop.line).then <|
  (compare a.stop.column b.stop.column).then <|
  compare a.file b.file

instance : Ord Span := ⟨cmp⟩

def isBefore (a b : Span) : Bool := (cmp a b).isLE

theorem start_line_le_stop_line (s : Span) : s.start.line ≤ s.stop.line := by
  have h := s.start_before_stop
  unfold Point.Before at h
  omega

theorem mem_lines {s : Span} {n : Nat} : n ∈ s.lines ↔ s.touches n := by
  have h := s.start_line_le_stop_line
  simp [lines, touches, List.mem_range'_1]
  omega

end Span

end SpanReport
