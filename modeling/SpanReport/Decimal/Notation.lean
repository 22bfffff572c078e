import SpanReport.Decimal.Shortest

/-!
# Floating-point numbers in decimal

A number is written with the fewest digits that read back. It is positional
while its exponent is at least -4 and below 16, with a digit on both sides of
the point; otherwise it has an exponent of two digits or more.
-/

namespace SpanReport.Decimal

def isPositional (exponent : Int) : Bool := decide (-4 ≤ exponent) && decide (exponent < 16)

/-- Digits with a point after so many of them, with zeros where there is no
digit; a number always has a digit on both sides of the point. -/
def positional (digits : List Char) (whole : Int) : List Char :=
  if whole ≤ 0 then '0' :: '.' :: List.replicate (-whole).toNat '0' ++ digits
  else
    let n := whole.toNat
    let front := digits.take n ++ List.replicate (n - digits.length) '0'
    let back := digits.drop n
    front ++ '.' :: if back = [] then ['0'] else back

def scientific (digits : List Char) (exponent : Int) : List Char :=
  let sign := if exponent < 0 then '-' else '+'
  let shown := Nat.toDigits 10 exponent.natAbs
  let padded := if shown.length < 2 then '0' :: shown else shown
  let point := match digits with
    | d :: [] => [d]
    | d :: rest => d :: '.' :: rest
    | [] => []
  point ++ 'e' :: sign :: padded

def decimalText (s : Scaled) : List Char :=
  let digits := Nat.toDigits 10 s.digits
  let exponent := s.exponent + digits.length - 1
  if isPositional exponent then positional digits (exponent + 1)
  else scientific digits exponent

/-- The text of a number in the 64-bit format: one bit of sign, eleven of
exponent, fifty-two of fraction. -/
def floatText (x : Float) : String :=
  let bits := x.toBits.toNat
  let exponent : Nat := (bits >>> 52) % 2048
  let fraction := bits % leastSignificand
  let sign := if bits >>> 63 = 1 then ['-'] else []
  if exponent = 2047 then
    if fraction = 0 then String.ofList (sign ++ ['i', 'n', 'f']) else "nan"
  else if exponent = 0 ∧ fraction = 0 then String.ofList (sign ++ ['0', '.', '0'])
  else
    let m := if exponent = 0 then fraction else fraction + leastSignificand
    let q := if exponent = 0 then leastExponent else leastExponent + exponent - 1
    String.ofList (sign ++ decimalText (shortest m q).trim)

end SpanReport.Decimal
