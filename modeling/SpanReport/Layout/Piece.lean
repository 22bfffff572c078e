import SpanReport.Document
import SpanReport.Glyph

/-!
# Pieces

A piece is a fragment that is not yet drawn in a charset: what it shows is
either text or a glyph. Drawing changes nothing but the characters of glyphs,
and those keep their number.
-/

namespace SpanReport.Layout

inductive Ink
  | text (s : String)
  | glyph (g : Glyph) (times : Nat)
  deriving DecidableEq, Repr

def Ink.draw (charset : Charset) : Ink → String
  | .text s => s
  | .glyph g times => String.join (List.replicate times (g.draw charset))

structure Piece where
  ink : Ink
  style : Style := Style.plain
  hanging : Bool := false
  deriving DecidableEq, Repr

namespace Piece

def draw (charset : Charset) (p : Piece) : Fragment := ⟨p.ink.draw charset, p.style, p.hanging⟩

def text (s : String) (style : Style := Style.plain) : Piece := { ink := .text s, style }

def glyph (g : Glyph) (style : Style) : Piece := { ink := .glyph g 1, style }

def blanks (n : Nat) : Piece := text (String.ofList (List.replicate n ' '))

def newline : Piece := text "\n"

def ofFragment (f : Fragment) : Piece := ⟨.text f.content, f.style, f.hanging⟩

/-- A message, its further lines hanging from where it begins. -/
def message (d : Document) : List Piece := d.hang.fragments.map ofFragment

@[simp] theorem style_text (s : String) (style : Style) : (text s style).style = style := rfl

@[simp] theorem style_glyph (g : Glyph) (style : Style) : (glyph g style).style = style := rfl

@[simp] theorem style_blanks (n : Nat) : (blanks n).style = Style.plain := rfl

theorem draw_ofFragment (charset : Charset) (f : Fragment) : (ofFragment f).draw charset = f := rfl

theorem length_draw (p : Piece) (a b : Charset) :
    (p.draw a).content.length = (p.draw b).content.length := by
  obtain ⟨ink, style, hanging⟩ := p
  cases ink with
  | text s => rfl
  | glyph g times =>
    simp only [draw, Ink.draw, ← String.length_toList, String.toList_join, List.length_flatMap]
    simp [String.length_toList, Glyph.length_draw]

end Piece

-- ---------------------------------------------------------------------------
-- The styles of a report
-- ---------------------------------------------------------------------------

def inked (colour : String) : Style := { foreground := some colour }

def bold (colour : String) : Style := { foreground := some colour, attributes := ["bold"] }

def frameColour : String := "dark_grey"

def fileColour : String := "green"

def hintColour : String := "cyan"

def absentColour : String := "magenta"

/-- Stands for a source line that is not there. -/
def absentLine : String := "<no line>"

end SpanReport.Layout
