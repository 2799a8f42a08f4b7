import XQuery.Number.Digits
import XQuery.Number.Rounding
import XQuery.Number.Shortest

/-!
# Double-precision numbers

A double is its 64 bits. Reading a decimal rounds it to the nearest double, a half to the even
one; writing uses the fewest digits that read back.
-/

namespace XQuery

/-- A number in the binary format of 64 bits. -/
structure Double where
  bits : UInt64
deriving DecidableEq

namespace Double

/-- The sign bit. -/
def negative (d : Double) : Bool := Nat.pow 2 63 ≤ d.bits.toNat

/-- The exponent field. -/
def exponentField (d : Double) : Nat := d.bits.toNat / Nat.pow 2 52 % Nat.pow 2 11

/-- The fraction field. -/
def fraction (d : Double) : Nat := d.bits.toNat % Nat.pow 2 52

/-- Not a number. -/
def isNaN (d : Double) : Bool := d.exponentField == 2047 && d.fraction != 0

/-- Positive or negative infinity. -/
def isInfinite (d : Double) : Bool := d.exponentField == 2047 && d.fraction == 0

/-- Positive or negative zero. -/
def isZero (d : Double) : Bool := d.exponentField == 0 && d.fraction == 0

/-- Whether the numbers are equal: the zeros are, and NaN equals nothing. -/
def equal (a b : Double) : Bool :=
  !a.isNaN && !b.isNaN && (a.bits == b.bits || (a.isZero && b.isZero))

/-- The magnitude of a finite number as `m * 2 ^ q`. -/
def magnitude (d : Double) : Nat × Int :=
  if d.exponentField = 0 then (d.fraction, -1074)
  else (d.fraction + Nat.pow 2 52, (d.exponentField : Int) - 1075)

/-! ## Reading -/

/-- The greatest `e` with `2 ^ e ≤ num / den`. -/
def log2Quotient (num den : Nat) : Int :=
  let e : Int := (num.log2 : Int) - den.log2
  if num * Nat.pow 2 (-e).toNat < den * Nat.pow 2 e.toNat then e - 1 else e

/-- The double nearest to the positive number `num / den`; infinity when it is too large. -/
def ofQuotient (num den : Nat) : Double :=
  let q := max (log2Quotient num den - 52) (-1074)
  let m := roundHalfEven (num * Nat.pow 2 (-q).toNat) (den * Nat.pow 2 q.toNat)
  let hidden := Nat.pow 2 52
  let bits := if m < hidden then m else (q + 1075).toNat * hidden + (m - hidden)
  ⟨(min bits (2047 * hidden)).toUInt64⟩

/-- The double nearest to `n * 10 ^ exponent`. Numbers of more than 400 digits before the point
are infinite and those with more than 400 zeros behind it are zero. -/
def ofScientific (n : Nat) (exponent : Int) : Double :=
  let place : Int := exponent + ((Digits.ofNat n).length : Nat)
  if n = 0 ∨ place < -400 then ⟨0⟩
  else if 400 < place then ⟨(2047 * Nat.pow 2 52).toUInt64⟩
  else ofQuotient (n * Nat.pow 10 exponent.toNat) (Nat.pow 10 (-exponent).toNat)

/-! ## Writing -/

/-- The numbers that are rounded to a finite positive one. Below a power of two the next double is
only half as far away. -/
def interval (d : Double) : Shortest.Interval :=
  let (m, q) := d.magnitude
  let step := Nat.pow 2 q.toNat
  let lower := if d.fraction = 0 ∧ 1 < d.exponentField then 1 else 2
  { low := (4 * m - lower) * step
    value := 4 * m * step
    high := (4 * m + 2) * step
    den := 4 * Nat.pow 2 (-q).toNat
    closed := m % 2 = 0 }

/-- Digits with the point at `place`, without an exponent. -/
def positional (ds : List Char) (place : Int) : List Char :=
  if place ≤ 0 then '0' :: '.' :: (List.replicate (-place).toNat '0' ++ ds)
  else
    let whole := ds.take place.toNat
    let rest := ds.drop place.toNat
    whole ++ List.replicate (place.toNat - ds.length) '0'
      ++ (if rest.isEmpty then [] else '.' :: rest)

/-- Digits with one place before the point, at least one behind it, and an exponent. -/
def scientific (ds : List Char) (place : Int) : List Char :=
  let exponent := place - 1
  ds.take 1 ++ '.' :: (if ds.length ≤ 1 then ['0'] else ds.drop 1) ++ 'E' ::
    ((if exponent < 0 then ['-'] else []) ++ Digits.ofNat exponent.natAbs)

/-- The canonical text of an `xs:double`: positional from a millionth up to a million, and with an
exponent outside. -/
def text (d : Double) : String :=
  if d.isNaN then "NaN"
  else
    let sign := if d.negative then ['-'] else []
    if d.isInfinite then String.ofList (sign ++ ['I', 'N', 'F'])
    else if d.isZero then String.ofList (sign ++ ['0'])
    else
      let (ds, place) := Shortest.digits d.interval
      let number := if -5 ≤ place ∧ place ≤ 6 then positional ds place else scientific ds place
      String.ofList (sign ++ number)

end Double

end XQuery
