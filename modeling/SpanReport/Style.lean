/-!
# Styles

A style names a foreground colour, a background colour and a list of
attributes. Names are free text; only the known ones have a code that the
terminal understands, and the first unknown one, in the order foreground,
background, attributes, is what painting complains about. The names, their
codes and how they are put around a line are those of termcolor, the library of
terminal colours that the program uses and does not contain.
-/

namespace SpanReport

structure Style where
  foreground : Option String := none
  background : Option String := none
  attributes : List String := []
  deriving DecidableEq, Repr, Inhabited

structure UnknownName where
  name : String
  deriving DecidableEq, Repr

inductive Aspect
  | foreground
  | background
  | attribute
  deriving DecidableEq, Repr

/-- The colour names and their foreground codes. -/
def colours : List (String × Nat) :=
  [("black", 30), ("grey", 30), ("red", 31), ("green", 32), ("yellow", 33), ("blue", 34),
   ("magenta", 35), ("cyan", 36), ("light_grey", 37), ("dark_grey", 90), ("light_red", 91),
   ("light_green", 92), ("light_yellow", 93), ("light_blue", 94), ("light_magenta", 95),
   ("light_cyan", 96), ("white", 97)]

/-- Every colour is a background too, under a longer name and ten codes on. -/
def backgrounds : List (String × Nat) :=
  colours.map fun (name, code) => ("on_" ++ name, code + 10)

def attributes : List (String × Nat) :=
  [("bold", 1), ("dark", 2), ("italic", 3), ("underline", 4), ("blink", 5), ("reverse", 7),
   ("concealed", 8), ("strike", 9)]

def Aspect.names : Aspect → List (String × Nat)
  | .foreground => colours
  | .background => backgrounds
  | .attribute => attributes

def Aspect.code? (aspect : Aspect) (name : String) : Option Nat := aspect.names.lookup name

namespace Style

def plain : Style := {}

/-- A style as it is asked for. An attribute that is left open is left out. -/
def ofOptions (foreground background : Option String) (attributes : List (Option String)) : Style :=
  { foreground, background, attributes := attributes.filterMap id }

/-- The names of a style, in the order in which they are looked up. -/
def names (s : Style) : List (Aspect × String) :=
  s.foreground.toList.map (.foreground, ·) ++ s.background.toList.map (.background, ·) ++
    s.attributes.map (.attribute, ·)

def isPlain (s : Style) : Bool := s.names.isEmpty

def code (named : Aspect × String) : Except UnknownName Nat :=
  match named.1.code? named.2 with
  | some n => .ok n
  | none => .error ⟨named.2⟩

def codes (s : Style) : Except UnknownName (List Nat) := s.names.mapM code

def Known (s : Style) : Prop := ∀ named ∈ s.names, (named.1.code? named.2).isSome

instance (s : Style) : Decidable s.Known := by
  unfold Known
  infer_instance

end Style

def escape (code : Nat) : List Char := '\x1b' :: '[' :: Nat.toDigits 10 code ++ ['m']

/-- A line under some codes: each one is put in front of those before it, and
one reset ends the line. An empty line stays empty. -/
def paint (codes : List Nat) (line : List Char) : List Char :=
  if line = [] then [] else codes.reverse.flatMap escape ++ line ++ escape 0

end SpanReport
