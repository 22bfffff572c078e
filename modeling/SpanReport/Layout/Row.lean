import SpanReport.Layout.Piece
import SpanReport.Report

/-!
# Rows

A report is a list of rows, one to a line but for line feeds in messages. All
rows after the title begin with a gutter: a line number or blanks, one blank
on each side, and a glyph of the frame. Rows of a displayed line go on with one
blank, the bracket of spans over several lines, and cells that stand under the
characters of the source text. The views at the end tell of a row which line or
marker it is there for, and what it shows.
-/

namespace SpanReport.Layout

/-- The three columns between gutter and source text. -/
inductive Bracket
  /-- No span of the report has several lines, so there are no such columns. -/
  | absent
  /-- No span over several lines has a part in the line. -/
  | blank
  /-- A span goes on through the row. -/
  | through (colour : String)
  /-- A span begins or ends in the line; the first of all opens the bracket. -/
  | branch (opens : Bool) (colour : String)
  deriving DecidableEq, Repr

structure Run where
  text : String
  colour : Option String
  deriving DecidableEq, Repr

structure Stroke where
  caret : Bool
  colour : String
  deriving DecidableEq, Repr

/-- A column at which a label of a later row hangs. -/
structure Pipe where
  column : Nat
  colour : String
  deriving DecidableEq, Repr

inductive Row
  | title (message : Document)
  | pointer (span : Span)
  | rail
  | source (line : Nat) (bracket : Bracket) (excerpt : Option (List Run))
  | underline (line : Nat) (bracket : Bracket) (strokes : List (Option Stroke))
  | label (line : Nat) (bracket : Bracket) (pipes : List Pipe) (shared : Bool) (entry : Entry)
  | trailerHead (colour : String)
  | trailer (last : Bool) (entry : Entry)
  | gap
  | hint (message : Document)
  | footer

structure Frame where
  severity : Severity
  gutter : Nat

def Bracket.pieces : Bracket → List Piece
  | .absent => []
  | .blank => [.text "   "]
  | .through colour => [.glyph .bar (inked colour), .text "  "]
  | .branch opens colour =>
    [.glyph (if opens then .spanStart else .spanBranch) (inked colour),
     .glyph .spanTee (inked colour), .text " "]

def Run.piece (r : Run) : Piece :=
  match r.colour with
  | some colour => .text r.text (bold colour)
  | none => .text r.text

def excerptPieces : Option (List Run) → List Piece
  | some runs => runs.map Run.piece
  | none => [.text absentLine (inked absentColour)]

def strokePiece : Option Stroke → Piece
  | none => .text " "
  | some stroke => .glyph (if stroke.caret then .caret else .underline) (inked stroke.colour)

/-- Pipes with blanks between them, from a column up to the one before `stop`. -/
def pipePieces (column stop : Nat) : List Pipe → List Piece
  | [] => [.blanks (stop - column)]
  | pipe :: rest =>
    .blanks (pipe.column - column) :: .glyph .bar (inked pipe.colour) ::
      pipePieces (pipe.column + 1) stop rest

namespace Frame

def blankGutter (f : Frame) : Piece := .blanks (f.gutter + 2)

def dotGutter (f : Frame) : List Piece := [f.blankGutter, .glyph .dot (bold frameColour)]

def barGutter (f : Frame) : List Piece := [f.blankGutter, .glyph .bar (bold frameColour)]

/-- The line number at the right of its column. -/
def numberGutter (f : Frame) (line : Nat) : List Piece :=
  let digits := (Nat.repr line).toList
  let column := List.replicate (f.gutter - digits.length) ' ' ++ digits
  [.text (String.ofList (' ' :: column ++ [' '])) (inked frameColour),
   .glyph .bar (inked frameColour)]

end Frame

namespace Row

/-- What a row shows before its message. -/
def head (f : Frame) : Row → List Piece
  | title _ =>
    [.text ("[" ++ f.severity.label ++ "]") (bold f.severity.colour), .text ":", .text " "]
  | pointer span =>
    [f.blankGutter, .glyph .fileArrow (bold frameColour), .text " ",
     .text span.text (bold fileColour)]
  | rail => f.barGutter
  | source line bracket excerpt =>
    f.numberGutter line ++ .text " " :: bracket.pieces ++ excerptPieces excerpt
  | underline _ bracket strokes =>
    f.dotGutter ++ .text " " :: bracket.pieces ++ strokes.map strokePiece
  | label _ bracket pipes shared (span, marker) =>
    let colour := marker.colour f.severity
    f.dotGutter ++ .text " " :: bracket.pieces ++ pipePieces 1 span.start.column pipes ++
      [.glyph (if shared then .labelBranch else .labelLast) (inked colour),
       .glyph .labelPoint (inked colour), .text " "]
  | trailerHead colour => f.dotGutter ++ [.text " ", .glyph .bar (inked colour)]
  | trailer last (_, marker) =>
    f.dotGutter ++
      [.text " ", .glyph (if last then .trailerLast else .trailerBranch)
        (inked (marker.colour f.severity))]
  | gap => f.dotGutter
  | hint _ => f.barGutter ++ [.text " ", .text "Hint:" (bold hintColour), .text " "]
  | footer =>
    [{ ink := .glyph .rule (f.gutter + 2), style := bold frameColour },
     .glyph .corner (bold frameColour)]

/-- The message that ends a row, in the style in which it is shown there. Most
rows have none. -/
def message (f : Frame) : Row → Document
  | title message => message
  | label _ _ _ _ (_, marker) => marker.message.restyle (inked (marker.colour f.severity))
  | trailer _ (_, marker) => marker.message
  | hint message => message.restyle (inked hintColour)
  | _ => {}

def pieces (f : Frame) (row : Row) : List Piece := row.head f ++ Piece.message (row.message f)

/-- A row as it is drawn in a charset. -/
def fragments (charset : Charset) (f : Frame) (row : Row) : List Fragment :=
  (row.pieces f).map (Piece.draw charset)

end Row

-- ---------------------------------------------------------------------------
-- Views
-- ---------------------------------------------------------------------------

/-- What a row shows of its line. -/
inductive Part
  | text
  | underline
  | label
  deriving DecidableEq, Repr

/-- What carries the message of a marker: a label in a line, or a row of the
trailer, which may close its bracket. -/
inductive Carrier
  | label (line : Nat)
  | trailer (closing : Bool)
  deriving DecidableEq, Repr

namespace Row

/-- The line that a row belongs to. -/
def line? : Row → Option Nat
  | source line _ _ | underline line _ _ | label line _ _ _ _ => some line
  | _ => none

def part? : Row → Option (Nat × Part)
  | source line _ _ => some (line, .text)
  | underline line _ _ => some (line, .underline)
  | label line _ _ _ _ => some (line, .label)
  | _ => none

def carried? : Row → Option (Carrier × Entry)
  | label line _ _ _ e => some (.label line, e)
  | trailer last e => some (.trailer last, e)
  | _ => none

/-- What a row of a displayed line shows before its blank. -/
def lineGutter (f : Frame) : Row → List Piece
  | source line _ _ => f.numberGutter line
  | underline _ _ _ | label _ _ _ _ _ => f.dotGutter
  | _ => []

/-- What a row of a displayed line shows in the columns of the source text. -/
def lineCells (f : Frame) : Row → List Piece
  | source _ _ excerpt => excerptPieces excerpt
  | underline _ _ strokes => strokes.map strokePiece
  | label _ _ pipes shared (span, marker) =>
    let colour := marker.colour f.severity
    pipePieces 1 span.start.column pipes ++
      [.glyph (if shared then .labelBranch else .labelLast) (inked colour),
       .glyph .labelPoint (inked colour), .text " "]
  | _ => []

end Row

def textLine? : Nat × Part → Option Nat
  | (line, .text) => some line
  | _ => none

/-- The lines whose text is shown, from top to bottom. -/
def textLines (rows : List Row) : List Nat := (rows.filterMap Row.part?).filterMap textLine?

end SpanReport.Layout
