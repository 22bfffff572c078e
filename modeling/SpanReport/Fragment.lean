import SpanReport.Style
import SpanReport.Text.Lines

/-!
# Fragments

A fragment is a run of text in one style. A hanging fragment indents its
further lines to the column at which it is printed. Colours are put on line by
line, so that none spans a line feed, and change no visible character.
-/

namespace SpanReport

structure Fragment where
  content : String
  style : Style := Style.plain
  hanging : Bool := false
  deriving DecidableEq, Repr, Inhabited

namespace Fragment

def restyle (style : Style) (f : Fragment) : Fragment := { f with style }

def hang (f : Fragment) : Fragment := { f with hanging := true }

def width (f : Fragment) : Nat := Text.width f.content.toList

def indent (f : Fragment) (column : Int) : Nat := if f.hanging then (column - 1).toNat else 0

/-- The characters printed at a column, indents and all. -/
def chars (f : Fragment) (column : Int) : List Char :=
  Text.hang (f.indent column) f.content.toList

def next (f : Fragment) (column : Int) : Int := Text.advance column (f.chars column)

def emit (f : Fragment) (column : Int) : String := String.ofList (f.chars column)

inductive Misplaced
  /-- The indent is no signed number of 64 bits. -/
  | beyondWord
  /-- There is no room for so many blanks; nothing is said about it. -/
  | beyondRoom
  deriving DecidableEq, Repr

def Misplaced.message : Misplaced → String
  | .beyondWord => "cannot fit 'int' into an index-sized integer"
  | .beyondRoom => ""

/-- Signed numbers of 64 bits stay below this limit and reach its negative. -/
def wordLimit : Int := 1 <<< 63

/-- Whether a column that is handed in from outside can be printed at, if there is
room for so many blanks in a row and for no more. Only a fragment that indents
further lines has to ask; a column that printing has reached is always in range. -/
def checkColumn (room : Nat) (f : Fragment) (column : Int) : Except Misplaced Unit :=
  if f.hanging && f.content.contains '\n' then
    if column - 1 < -wordLimit ∨ wordLimit ≤ column - 1 then .error .beyondWord
    else if room < column - 1 then .error .beyondRoom
    else .ok ()
  else .ok ()

def paints (f : Fragment) (column : Int) : Bool :=
  !f.style.isPlain && (f.chars column).any (· != '\n')

/-- The text printed at a column in colour. Names are looked up only when there
is something to colour. -/
def emitColoured (f : Fragment) (column : Int) : Except UnknownName String :=
  if f.paints column then do
    let codes ← f.style.codes
    let painted := (Text.lines (f.chars column)).map (paint codes)
    .ok (String.ofList (Text.joinLines painted))
  else .ok (f.emit column)

theorem chars_not_hanging {f : Fragment} (h : f.hanging = false) (column : Int) :
    f.chars column = f.content.toList := by
  simp [chars, indent, h]

theorem one_le_next {column : Int} (h : 1 ≤ column) (f : Fragment) : 1 ≤ f.next column :=
  Text.one_le_advance h _

end Fragment

end SpanReport
