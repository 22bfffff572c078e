import SpanReport.Text.Printable

/-!
# Quoted text

A text stands between single quotes, or between double quotes when it holds
single quotes and no double ones. A backslash escapes itself, the quote that
is used, the line feed, the carriage return and the tab; any other character
that is not printable is written by its code point, with two, four or eight
hexadecimal digits.
-/

namespace SpanReport.Text.Quoted

/-- The hexadecimal digits of a code point, filled up with zeros. -/
def hex (digits code : Nat) : List Char :=
  let shown := Nat.toDigits 16 code
  List.replicate (digits - shown.length) '0' ++ shown

def mark (text : List Char) : Char :=
  if text.contains '\x27' && !text.contains '\x22' then '\x22' else '\x27'

def escape (mark c : Char) : List Char :=
  if c = mark ∨ c = '\\' then ['\\', c]
  else if c = '\n' then ['\\', 'n']
  else if c = '\r' then ['\\', 'r']
  else if c = '\t' then ['\\', 't']
  else if isPrintable c then [c]
  else if c.toNat < 0x100 then '\\' :: 'x' :: hex 2 c.toNat
  else if c.toNat < 0x10000 then '\\' :: 'u' :: hex 4 c.toNat
  else '\\' :: 'U' :: hex 8 c.toNat

def encode (text : List Char) : List Char :=
  mark text :: text.flatMap (escape (mark text)) ++ [mark text]

end Quoted

def quoted (text : String) : String := String.ofList (Quoted.encode text.toList)

end SpanReport.Text
