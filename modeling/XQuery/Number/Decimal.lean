import XQuery.Number.Digits
import XQuery.Number.Rounding
import XQuery.Text.Split

/-!
# Decimal numbers

A decimal number is a sign, a mantissa below `2 ^ 96` and a scale of at most 28: it stands for
the mantissa divided by ten to the scale. The scale is part of the number, so that `1.5` and
`1.50` are told apart although they are equal in value, and so are `0` and `-0`.
-/

namespace XQuery

/-- A signed decimal number of limited precision. -/
structure Decimal where
  negative : Bool
  mantissa : Nat
  scale : Nat
  mantissa_lt : mantissa < Nat.pow 2 96
  scale_le : scale ≤ 28
deriving DecidableEq

namespace Decimal

/-- Mantissas are below this number. -/
def mantissaLimit : Nat := Nat.pow 2 96

/-- The greatest scale. -/
def maxScale : Nat := 28

/-- The decimal with these parts, if they are within the limits. -/
def make? (negative : Bool) (mantissa scale : Nat) : Option Decimal :=
  if h : mantissa < mantissaLimit ∧ scale ≤ maxScale then
    some ⟨negative, mantissa, scale, h.1, h.2⟩
  else none

/-- Zero. -/
def zero : Decimal := ⟨false, 0, 0, by decide, by decide⟩

/-- The whole number `n`, if it is below the limit. -/
def ofNat? (n : Nat) : Option Decimal := make? false n 0

/-- Whether the value is zero. -/
def isZero (d : Decimal) : Bool := d.mantissa == 0

/-- The mantissa with its sign. -/
def signed (d : Decimal) : Int := if d.negative then -d.mantissa else d.mantissa

/-- The same number with the opposite sign; the sign of zero changes as well. -/
def neg (d : Decimal) : Decimal := { d with negative := !d.negative }

/-- The same number without its sign. -/
def abs (d : Decimal) : Decimal := { d with negative := false }

/-- Whether two decimals have the same value. -/
def equal (a b : Decimal) : Bool :=
  a.signed * Int.pow 10 b.scale == b.signed * Int.pow 10 a.scale

/-- The order of the values. -/
def cmp (a b : Decimal) : Ordering :=
  compare (a.signed * Int.pow 10 b.scale) (b.signed * Int.pow 10 a.scale)

/-! ## Reading and writing -/

/-- The mantissa and scale of digits behind the point, read after the mantissa `m` of scale
`scale`. Once no further digit fits, the next one decides whether the last is rounded up. -/
def readFraction (m scale : Nat) : List Char → Option (Nat × Nat)
  | [] => some (m, scale)
  | c :: cs =>
      let next := m * 10 + Digits.digit c
      if scale < maxScale ∧ next < mantissaLimit then readFraction next (scale + 1) cs
      else
        let rounded := if 5 ≤ Digits.digit c then m + 1 else m
        if rounded < mantissaLimit then some (rounded, scale)
        else if scale = 0 then none
        else some ((mantissaLimit + 4) / 10, scale - 1)

/-- The decimal that digits before and behind the point write. -/
def ofDigits? (whole fraction : List Char) : Option Decimal :=
  let m := Digits.value whole
  if m < mantissaLimit then
    (readFraction m 0 fraction).bind fun (m, scale) => make? false m scale
  else none

/-- Read a number with an optional sign and an optional point. Zero is read without a sign. -/
def ofText? (s : String) : Option Decimal :=
  let (negative, cs) :=
    match s.toList with
    | '-' :: cs => (true, cs)
    | '+' :: cs => (false, cs)
    | cs => (false, cs)
  let (whole, fraction) := (Text.splitAtFirst? (· == '.') cs).getD (cs, [])
  if Digits.isDigits (whole ++ fraction) then
    (ofDigits? whole fraction).map fun d => if negative && !d.isZero then d.neg else d
  else none

/-- The number in digits, with as many places behind the point as its scale. -/
def text (d : Decimal) : String :=
  let sign := if d.negative then ['-'] else []
  let whole := Digits.ofNat (d.mantissa / Nat.pow 10 d.scale)
  let fraction :=
    if d.scale = 0 then []
    else '.' :: Digits.padLeft d.scale (Digits.ofNat (d.mantissa % Nat.pow 10 d.scale))
  String.ofList (sign ++ whole ++ fraction)

/-- Remove up to `n` trailing zeros from a mantissa of scale `n`. -/
def stripZeros (m : Nat) : Nat → Nat × Nat
  | 0 => (m, 0)
  | n + 1 => if m % 10 = 0 then stripZeros (m / 10) n else (m, n + 1)

theorem stripZeros_le (m n : Nat) : (stripZeros m n).1 ≤ m ∧ (stripZeros m n).2 ≤ n := by
  induction n generalizing m with
  | zero => simp [stripZeros]
  | succ n ih =>
      unfold stripZeros
      split
      · have h := ih (m / 10)
        exact ⟨Nat.le_trans h.1 (Nat.div_le_self m 10), Nat.le_succ_of_le h.2⟩
      · simp

/-- The same value without trailing zeros and without a sign on zero. -/
def normalize (d : Decimal) : Decimal where
  negative := d.negative && !d.isZero
  mantissa := (stripZeros d.mantissa d.scale).1
  scale := (stripZeros d.mantissa d.scale).2
  mantissa_lt := Nat.lt_of_le_of_lt (stripZeros_le d.mantissa d.scale).1 d.mantissa_lt
  scale_le := Nat.le_trans (stripZeros_le d.mantissa d.scale).2 d.scale_le

/-! ## Arithmetic -/

/-- The quotient `num / den` at the largest scale up to the given one at which it fits, a half
rounded to the even neighbour. -/
def fit? (negative : Bool) (num den : Nat) : Nat → Option Decimal
  | 0 => make? negative (roundHalfEven num den) 0
  | n + 1 =>
      match make? negative (roundHalfEven (num * Nat.pow 10 (n + 1)) den) (n + 1) with
      | some d => some d
      | none => fit? negative num den n

/-- The sum at the larger of the two scales, or at the largest scale at which it fits. A zero
operand leaves the other one as it is. -/
def add? (a b : Decimal) : Option Decimal :=
  if a.isZero then some b
  else if b.isZero then some a
  else
    let scale := max a.scale b.scale
    let sum := a.signed * Int.pow 10 (scale - a.scale) + b.signed * Int.pow 10 (scale - b.scale)
    fit? (sum < 0) sum.natAbs (Nat.pow 10 scale) scale

/-- The product with a whole number, at the scale of the decimal or at the largest one at which it
fits. The product with zero is zero without a sign. -/
def mulNat? (d : Decimal) (n : Nat) : Option Decimal :=
  if d.isZero || n == 0 then some zero
  else fit? d.negative (d.mantissa * n) (Nat.pow 10 d.scale) d.scale

/-- The whole part. -/
def trunc (d : Decimal) : Decimal where
  negative := d.negative
  mantissa := d.mantissa / Nat.pow 10 d.scale
  scale := 0
  mantissa_lt := Nat.lt_of_le_of_lt (Nat.div_le_self _ _) d.mantissa_lt
  scale_le := by decide

/-- The quotient by a whole number, to as many places as fit. -/
def divNat (d : Decimal) (n : Nat) : Decimal :=
  (fit? d.negative d.mantissa (n * Nat.pow 10 d.scale) maxScale).getD zero

/-- The exact remainder on division by a whole number, with the sign of the dividend. -/
def modNat (d : Decimal) (n : Nat) : Decimal :=
  { d with
    mantissa := d.mantissa % (n * Nat.pow 10 d.scale)
    mantissa_lt := Nat.lt_of_le_of_lt (Nat.mod_le _ _) d.mantissa_lt }

end Decimal

end XQuery
