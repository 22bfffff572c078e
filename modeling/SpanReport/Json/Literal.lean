import SpanReport.Decimal.Notation
import SpanReport.Json
import SpanReport.Text.Quoted

/-!
# Values written out

How a value is shown inside a message: texts quoted, lists in brackets,
objects in braces with their members in order, and numbers in decimal.
-/

namespace SpanReport.Json

mutual
def literal : Json → String
  | .null => "None"
  | .bool true => "True"
  | .bool false => "False"
  | .integer n => Int.repr n
  | .float x => Decimal.floatText x
  | .text s => Text.quoted s
  | .list elements => "[" ++ ", ".intercalate (literals elements) ++ "]"
  | .object members => "\x7b" ++ ", ".intercalate (memberLiterals members) ++ "\x7d"

def literals : List Json → List String
  | [] => []
  | value :: rest => literal value :: literals rest

def memberLiterals : List (String × Json) → List String
  | [] => []
  | (name, value) :: rest => (Text.quoted name ++ ": " ++ literal value) :: memberLiterals rest
end

/-- A scalar as the text of a message: a text is itself, all else its literal. -/
def display : Json → String
  | .text s => s
  | value => literal value

end SpanReport.Json
