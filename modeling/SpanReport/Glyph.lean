/-!
# Glyphs

The frame of a report, its underlines and its labels are drawn with glyphs. A
glyph has the same number of characters in both charsets, so the choice of
charset moves nothing.
-/

namespace SpanReport

inductive Charset
  | unicode
  | ascii
  deriving DecidableEq, Repr

inductive Glyph
  /-- Points at the header position. -/
  | fileArrow
  /-- Gutter bar, continuation of a span, pipe of a pending label. -/
  | bar
  /-- Gutter of a row without source text. -/
  | dot
  /-- Footer rule and corner. -/
  | rule
  | corner
  /-- First line of the first span over several lines. -/
  | spanStart
  /-- Any other first or last line of such a span. -/
  | spanBranch
  /-- Joins a span's branch to the source text. -/
  | spanTee
  /-- First column of an inline marker, and its further columns. -/
  | caret
  | underline
  /-- Label whose column has another label to come, or none. -/
  | labelBranch
  | labelLast
  /-- Joins a label's branch to its message. -/
  | labelPoint
  /-- Message of a span over several lines, the last one apart. -/
  | trailerBranch
  | trailerLast
  deriving DecidableEq, Repr

namespace Glyph

def all : List Glyph :=
  [fileArrow, bar, dot, rule, corner, spanStart, spanBranch, spanTee, caret, underline,
   labelBranch, labelLast, labelPoint, trailerBranch, trailerLast]

def inUnicode : Glyph → String
  | fileArrow => "╭─▶"
  | bar => "│"
  | dot => "•"
  | rule => "─"
  | corner => "╯"
  | spanStart => "╭"
  | spanBranch => "├"
  | spanTee => "┤"
  | caret => "┬"
  | underline => "─"
  | labelBranch => "├"
  | labelLast => "╰"
  | labelPoint => "╸"
  | trailerBranch => "├╸ "
  | trailerLast => "╰╸ "

def inAscii : Glyph → String
  | fileArrow => "+->"
  | bar => "|"
  | dot => ":"
  | rule => "-"
  | corner => "+"
  | spanStart => "+"
  | spanBranch => "|"
  | spanTee => ">"
  | caret => "^"
  | underline => "-"
  | labelBranch => "|"
  | labelLast => "\x60"
  | labelPoint => "-"
  | trailerBranch => "|- "
  | trailerLast => "\x60- "

def draw : Charset → Glyph → String
  | .unicode => inUnicode
  | .ascii => inAscii

def width (g : Glyph) : Nat := g.inUnicode.length

theorem length_draw (charset : Charset) (g : Glyph) : (g.draw charset).length = g.width := by
  cases charset <;> cases g <;> rfl

theorem newline_not_mem_draw (charset : Charset) (g : Glyph) : '\n' ∉ (g.draw charset).toList := by
  cases charset <;> cases g <;> decide

end Glyph

end SpanReport
