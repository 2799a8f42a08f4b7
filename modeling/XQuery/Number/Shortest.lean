/-!
# Shortest decimal digits

Among the decimal numbers inside an interval around a value, the one with the fewest significant
digits; of several, the nearest to the value, and of two equally near ones the greater.
-/

namespace XQuery.Shortest

/-- A positive value with the interval of the numbers that are rounded to it, all three over one
denominator. -/
structure Interval where
  low : Nat
  value : Nat
  high : Nat
  den : Nat
  /-- Whether the ends belong to the interval. -/
  closed : Bool

/-- The number of zeros between the point and the first digit of `num / den`, which is below one;
at most `fuel`. -/
def leadingZeros (num den : Nat) : Nat → Nat
  | 0 => 0
  | fuel + 1 => if den ≤ num * 10 then 0 else leadingZeros (num * 10) den fuel + 1

/-- The number of digits before the point, or minus the number of zeros behind it: the least `p`
with `num / den < 10 ^ p`. -/
def magnitude (num den : Nat) : Int :=
  if den ≤ num then ((Nat.toDigits 10 (num / den)).length : Nat)
  else -(leadingZeros num den 400 : Nat)

/-- The number with `digits` significant digits that lies in the interval, if there is one: a
coefficient and an exponent of ten. Only the two neighbours of the value can be nearest. -/
def candidate? (i : Interval) (digits : Nat) : Option (Nat × Int) :=
  let exponent := magnitude i.value i.den - digits
  let up := Nat.pow 10 (-exponent).toNat
  let den := i.den * Nat.pow 10 exponent.toNat
  let below := i.value * up / den
  let inside (c : Nat) : Bool :=
    if i.closed then i.low * up ≤ c * den && c * den ≤ i.high * up
    else i.low * up < c * den && c * den < i.high * up
  let nearer := 2 * (i.value * up - below * den) < den
  if inside below && (nearer || !inside (below + 1)) then some (below, exponent)
  else if inside (below + 1) then some (below + 1, exponent)
  else none

/-- The candidate with the fewest digits, counting up from `digits`. -/
def search (i : Interval) (digits : Nat) : Nat → Nat × Int
  | 0 => (i.value / i.den, 0)
  | fuel + 1 =>
      match candidate? i digits with
      | some c => c
      | none => search i (digits + 1) fuel

/-- The digits without trailing zeros and the place of the point: the number is `0.digits` times
ten to that place. -/
def digits (i : Interval) : List Char × Int :=
  let (coefficient, exponent) := search i 1 20
  let ds := Nat.toDigits 10 coefficient
  ((ds.reverse.dropWhile (· == '0')).reverse, exponent + (ds.length : Nat))

end XQuery.Shortest
