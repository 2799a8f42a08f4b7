import XQuery.Proofs.Number.Values
import XQuery.Proofs.Value.NumericLiterals

/-!
# Numbers in digits

The digits of a number write this number, also with zeros in front. A decimal
number without sign is printed as its whole part and, if it has places, a point
with exactly as many digits behind it; read after each other these digits are
its mantissa (`Decimal.valueFrom_digits`).
-/

namespace XQuery

namespace Digits

theorem value_ofNat (n : Nat) : value (ofNat n) = n := by
  rw [Literal.value_eq_ofDigitChars, ofNat, Nat.ofDigitChars_toDigits (by decide) (by decide)]

theorem allDigits_ofNat (n : Nat) : AllDigits (ofNat n) := by
  intro c hc
  exact Nat.isDigit_of_mem_toDigits (by decide) (by decide) hc

theorem ofNat_ne_nil (n : Nat) : ofNat n ≠ [] := Nat.toDigits_ne_nil

theorem length_ofNat_le {n places : Nat} (hplaces : 0 < places) (h : n < 10 ^ places) :
    (ofNat n).length ≤ places :=
  (Nat.length_toDigits_le_iff (by decide) hplaces).mpr h

theorem length_padLeft {width : Nat} {cs : List Char} (h : cs.length ≤ width) :
    (padLeft width cs).length = width := by
  simp [padLeft, h]

theorem value_padLeft (width : Nat) (cs : List Char) : value (padLeft width cs) = value cs := by
  rw [Literal.value_eq_ofDigitChars, Literal.value_eq_ofDigitChars, padLeft,
    Nat.ofDigitChars_append]
  simp

theorem allDigits_padLeft (width : Nat) {cs : List Char} (h : AllDigits cs) :
    AllDigits (padLeft width cs) := by
  intro c hc
  rcases List.mem_append.mp hc with hc | hc
  · rw [List.eq_of_mem_replicate hc]
    rfl
  · exact h c hc

end Digits

namespace Decimal

/-- The digits before the point. -/
def wholeDigits (d : Decimal) : List Char := Digits.ofNat (d.mantissa / 10 ^ d.scale)

/-- The digits behind the point. -/
def fractionDigits (d : Decimal) : List Char :=
  if d.scale = 0 then []
  else Digits.padLeft d.scale (Digits.ofNat (d.mantissa % 10 ^ d.scale))

theorem allDigits_wholeDigits (d : Decimal) : AllDigits d.wholeDigits :=
  Digits.allDigits_ofNat _

theorem allDigits_fractionDigits (d : Decimal) : AllDigits d.fractionDigits := by
  unfold fractionDigits
  split
  · exact .nil
  · exact Digits.allDigits_padLeft _ (Digits.allDigits_ofNat _)

theorem length_fractionDigits (d : Decimal) : d.fractionDigits.length = d.scale := by
  unfold fractionDigits
  split
  · next hscale => rw [hscale, List.length_nil]
  · next hscale =>
      have hlt : d.mantissa % 10 ^ d.scale < 10 ^ d.scale :=
        Nat.mod_lt _ (Nat.pow_pos (by decide))
      exact Digits.length_padLeft (Digits.length_ofNat_le (Nat.pos_of_ne_zero hscale) hlt)

theorem value_fractionDigits (d : Decimal) :
    Digits.value d.fractionDigits = d.mantissa % 10 ^ d.scale := by
  unfold fractionDigits
  split
  · next hscale =>
      rw [hscale, Nat.pow_zero, Nat.mod_one]
      rfl
  · rw [Digits.value_padLeft, Digits.value_ofNat]

/-- The printed digits write the mantissa. -/
theorem valueFrom_digits (d : Decimal) :
    Digits.value d.wholeDigits * 10 ^ d.scale + Digits.value d.fractionDigits = d.mantissa := by
  rw [value_fractionDigits, wholeDigits, Digits.value_ofNat, Nat.mul_comm]
  exact Nat.div_add_mod _ _

theorem toList_text_of_scale {d : Decimal} (hnegative : d.negative = false) (hscale : d.scale ≠ 0) :
    d.text.toList = d.wholeDigits ++ '.' :: d.fractionDigits := by
  rw [text, hnegative, fractionDigits, if_neg hscale, if_neg hscale, String.toList_ofList]
  rfl

/-- A whole number is printed without a point. -/
theorem text_of_whole {d : Decimal} (hnegative : d.negative = false) (hscale : d.scale = 0) :
    d.text = toString d.mantissa := by
  have hwhole : d.mantissa / Nat.pow 10 0 = d.mantissa := Nat.div_one _
  rw [text, hnegative, hscale, hwhole, Nat.toString_eq_ofList_toDigits]
  simp [Digits.ofNat]

end Decimal

end XQuery
