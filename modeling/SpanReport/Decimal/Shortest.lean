/-!
# Shortest decimals

The finite binary fraction `m * 2 ^ q` stands for every real that rounds to
it. Among the decimals with the fewest digits in that interval, the nearest
one is chosen; of two equally near ones, the one with an even last digit.
-/

namespace SpanReport.Decimal

/-- The decimal `digits * 10 ^ exponent`. -/
structure Scaled where
  digits : Nat
  exponent : Int
  deriving DecidableEq, Repr

structure Ratio where
  numerator : Nat
  denominator : Nat

def Ratio.scale (r : Ratio) (base : Nat) : Int → Ratio
  | .ofNat n => ⟨r.numerator * base.pow n, r.denominator⟩
  | .negSucc n => ⟨r.numerator, r.denominator * base.pow (n + 1)⟩

def digitCount (n : Nat) : Nat := (Nat.toDigits 10 n).length

/-- The number of digits before the point, so that `10 ^ (k - 1) ≤ r < 10 ^ k`. -/
def Ratio.magnitude (r : Ratio) : Int :=
  if r.denominator ≤ r.numerator then digitCount (r.numerator / r.denominator)
  else 1 - (digitCount ((r.denominator - 1) / r.numerator) : Int)

/-- The reals that round to a binary fraction, in quarters of its last place. -/
structure Interval where
  low : Ratio
  value : Ratio
  high : Ratio
  closed : Bool

/-- The significand of a binary fraction with the fewest bits that its format
writes in full; below it the reals lie twice as dense. -/
def leastSignificand : Nat := 1 <<< 52

def leastExponent : Int := -1074

def Interval.around (m : Nat) (q : Int) : Interval :=
  let below := if m = leastSignificand ∧ leastExponent < q then 1 else 2
  ⟨Ratio.scale ⟨4 * m - below, 4⟩ 2 q, Ratio.scale ⟨4 * m, 4⟩ 2 q,
    Ratio.scale ⟨4 * m + 2, 4⟩ 2 q, m % 2 == 0⟩

/-- Where a decimal of the given exponent stands to a rational. -/
def order (digits : Nat) (exponent : Int) (r : Ratio) : Ordering :=
  let d := Ratio.scale ⟨digits, 1⟩ 10 exponent
  compare (d.numerator * r.denominator) (r.numerator * d.denominator)

def Interval.holds (i : Interval) (digits : Nat) (exponent : Int) : Bool :=
  let low := order digits exponent i.low
  let high := order digits exponent i.high
  if i.closed then low != .lt && high != .gt else low == .gt && high == .lt

/-- The better of the value's two neighbours on the grid of an exponent. -/
def Interval.onGrid? (i : Interval) (exponent : Int) : Option Scaled :=
  let v := Ratio.scale i.value 10 (-exponent)
  let floor := v.numerator / v.denominator
  match i.holds floor exponent && floor != 0, i.holds (floor + 1) exponent with
  | false, false => none
  | true, false => some ⟨floor, exponent⟩
  | false, true => some ⟨floor + 1, exponent⟩
  | true, true =>
    match compare (2 * v.numerator) ((2 * floor + 1) * v.denominator) with
    | .lt => some ⟨floor, exponent⟩
    | .gt => some ⟨floor + 1, exponent⟩
    | .eq => some ⟨if floor % 2 = 0 then floor else floor + 1, exponent⟩

/-- Seventeen digits always tell two binary fractions apart. -/
def shortest (m : Nat) (q : Int) : Scaled :=
  let i := Interval.around m q
  let k := i.value.magnitude
  let grids := (List.range 17).map fun (n : Nat) => k - 1 - (n : Int)
  (grids.findSome? i.onGrid?).getD ⟨m, q⟩

def Scaled.trim (s : Scaled) : Scaled :=
  let zeros := ((Nat.toDigits 10 s.digits).reverse.takeWhile (· == '0')).length
  if s.digits = 0 then s else ⟨s.digits / Nat.pow 10 zeros, s.exponent + zeros⟩

end SpanReport.Decimal
