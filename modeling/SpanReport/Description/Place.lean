/-!
# Places in a value

A place is the way from a whole value to one of its parts, by member names and
element numbers.
-/

namespace SpanReport

inductive PlaceStep
  | member (name : String)
  | element (index : Nat)
  deriving DecidableEq, Repr

abbrev Place := List PlaceStep

/-- A point stands before every member but the first one. -/
def PlaceStep.text (first : Bool) : PlaceStep → String
  | .member name => if first then name else "." ++ name
  | .element index => "[" ++ Nat.repr index ++ "]"

def Place.text : Place → String
  | [] => ""
  | step :: rest => step.text true ++ String.join (rest.map (PlaceStep.text false))

end SpanReport
