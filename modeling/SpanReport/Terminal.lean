/-!
# Reading a terminal's text

What a reader of escapes sees: each character with the colours and attributes
in force where it stands. An escape is ESC, a bracket, a number and `m`; any
other text is read as it is. A number sets the foreground, sets the
background, adds an attribute, or, being zero, resets all three.
-/

namespace SpanReport.Terminal

/-- The codes in force. The attributes have no order and none comes twice. -/
structure Pen where
  foreground : Option Nat := none
  background : Option Nat := none
  attributes : List Nat := []
  deriving DecidableEq, Repr

def Pen.reset : Pen := {}

def Pen.apply (pen : Pen) (code : Nat) : Pen :=
  if code = 0 then .reset
  else if (30 ≤ code ∧ code ≤ 37) ∨ (90 ≤ code ∧ code ≤ 97) then
    { pen with foreground := some code }
  else if (40 ≤ code ∧ code ≤ 47) ∨ (100 ≤ code ∧ code ≤ 107) then
    { pen with background := some code }
  else if code ≤ 9 ∧ code ∉ pen.attributes then
    { pen with attributes := code :: pen.attributes }
  else pen

inductive Phase
  | text
  | escape
  | number (value : Nat)
  deriving DecidableEq, Repr

/-- The visible characters from the given state on, each under its pen. -/
def readFrom (pen : Pen) : Phase → List Char → List (Char × Pen)
  | _, [] => []
  | .text, c :: rest =>
    if c = '\x1b' then readFrom pen .escape rest else (c, pen) :: readFrom pen .text rest
  | .escape, c :: rest =>
    if c = '[' then readFrom pen (.number 0) rest else (c, pen) :: readFrom pen .text rest
  | .number n, c :: rest =>
    if c.isDigit then readFrom pen (.number (n * 10 + (c.toNat - '0'.toNat))) rest
    else if c = 'm' then readFrom (pen.apply n) .text rest
    else (c, pen) :: readFrom pen .text rest

def read (text : List Char) : List (Char × Pen) := readFrom .reset .text text

end SpanReport.Terminal
