/-!
# Blank characters

The characters that trimming takes off both ends of a word: the control
blanks, the information separators, the next-line control, and every space,
line and paragraph separator of Unicode. The zero-width characters are no
blanks.
-/

namespace SpanReport.Text

/-- The code points of the blanks, in ascending ranges. -/
def blankRanges : List (Nat × Nat) :=
  [(0x09, 0x0D), (0x1C, 0x20), (0x85, 0x85), (0xA0, 0xA0), (0x1680, 0x1680),
   (0x2000, 0x200A), (0x2028, 0x2029), (0x202F, 0x202F), (0x205F, 0x205F), (0x3000, 0x3000)]

def isBlank (c : Char) : Bool :=
  blankRanges.any fun (low, high) => decide (low ≤ c.toNat) && decide (c.toNat ≤ high)

def trim (text : List Char) : List Char :=
  ((text.dropWhile isBlank).reverse.dropWhile isBlank).reverse

/-- A keyword as it is compared: trimmed, and without regard to the case of the
letters A to Z. No word with another letter has a keyword for its lower case. -/
def keyword (text : String) : String :=
  String.ofList ((trim text.toList).map Char.toLower)

end SpanReport.Text
