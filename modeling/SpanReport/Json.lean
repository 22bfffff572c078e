/-!
# JSON values

Objects keep the order of their members, and a number written with a fraction
or an exponent is another value than an integer.
-/

namespace SpanReport

inductive Json
  | null
  | bool (b : Bool)
  | integer (n : Int)
  | float (x : Float)
  | text (s : String)
  | list (elements : List Json)
  | object (members : List (String × Json))
  deriving Inhabited

namespace Json

def member? (name : String) : List (String × Json) → Option Json := List.lookup name

/-- Sets a member: an old one keeps its place and takes the new value. -/
def setMember (name : String) (value : Json) : List (String × Json) → List (String × Json)
  | [] => [(name, value)]
  | (other, old) :: rest =>
    if other = name then (name, value) :: rest else (other, old) :: setMember name value rest

theorem member?_cons (name other : String) (value : Json) (rest : List (String × Json)) :
    member? other ((name, value) :: rest) =
      if other = name then some value else member? other rest := by
  by_cases h : other = name
  · simp [member?, h]
  · simp [member?, List.lookup_cons, h, beq_eq_false_iff_ne.mpr h]

theorem member?_setMember (name other : String) (value : Json) (members : List (String × Json)) :
    member? other (setMember name value members) =
      if other = name then some value else member? other members := by
  induction members with
  | nil => exact member?_cons name other value []
  | cons first rest ih =>
    obtain ⟨earlier, old⟩ := first
    by_cases he : earlier = name
    · subst he
      by_cases h : other = earlier <;> simp [setMember, member?_cons, h]
    · by_cases h : other = earlier
      · subst h
        simp [setMember, member?_cons, he]
      · simp [setMember, member?_cons, he, h, ih]

/-- What kind of value it is, as refusals name it. -/
def kind : Json → String
  | .null => "NoneType"
  | .bool _ => "bool"
  | .integer _ => "int"
  | .float _ => "float"
  | .text _ => "str"
  | .list _ => "list"
  | .object _ => "dict"

end Json

end SpanReport
