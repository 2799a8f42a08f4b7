import Mathlib.Tactic.Ring
import XQuery.Number.Decimal

/-!
# Exact decimal arithmetic

Every decimal number is a whole number of units of the last place that one can
have, so that its value is an integer (`Decimal.fixedPoint`). Reading digits and
adding are exact as long as all places of the result fit. Whole numbers have no
places to give up: with them a result that does not fit is refused.
-/

namespace XQuery

namespace Digits

theorem valueFrom_cons (acc : Nat) (c : Char) (cs : List Char) :
    valueFrom acc (c :: cs) = valueFrom (acc * 10 + digit c) cs := by
  simp only [valueFrom, List.foldl_cons]

theorem le_valueFrom (acc : Nat) (cs : List Char) : acc ≤ valueFrom acc cs := by
  induction cs generalizing acc with
  | nil => exact Nat.le_refl acc
  | cons c cs ih =>
    rw [valueFrom_cons]
    exact Nat.le_trans (by omega) (ih (acc * 10 + digit c))

/-- Further digits move the number before them to the left. -/
theorem valueFrom_eq (acc : Nat) (cs : List Char) :
    valueFrom acc cs = acc * 10 ^ cs.length + value cs := by
  induction cs generalizing acc with
  | nil => simp [valueFrom, value]
  | cons c cs ih =>
    rw [value, valueFrom_cons, valueFrom_cons, ih, ih (0 * 10 + digit c), List.length_cons,
      Nat.pow_succ]
    ring

end Digits

theorem roundHalfEven_mul (n : Nat) {den : Nat} (h : 0 < den) :
    roundHalfEven (n * den) den = n := by
  simp only [roundHalfEven, Nat.mul_div_cancel n h, Nat.mul_mod_left, Nat.mul_zero, if_pos h]

namespace Decimal

/-- The value in units of the last place that a decimal number can have. -/
def fixedPoint (d : Decimal) : Int := d.signed * 10 ^ (maxScale - d.scale)

theorem signed_neg (d : Decimal) : d.neg.signed = -d.signed := by
  unfold signed neg
  cases d.negative <;> simp

@[simp] theorem fixedPoint_neg (d : Decimal) : d.neg.fixedPoint = -d.fixedPoint := by
  rw [fixedPoint, signed_neg, Int.neg_mul]
  rfl

theorem signed_of_nonneg {d : Decimal} (h : d.negative = false) : d.signed = d.mantissa := by
  simp [signed, h]

theorem fixedPoint_of_isZero {d : Decimal} (h : d.isZero = true) : d.fixedPoint = 0 := by
  have hmantissa : d.mantissa = 0 := by simpa [isZero] using h
  simp [fixedPoint, signed, hmantissa]

/-! ## Making a decimal number -/

theorem make?_eq_some {negative : Bool} {mantissa scale : Nat} {d : Decimal} :
    make? negative mantissa scale = some d ↔
      d.negative = negative ∧ d.mantissa = mantissa ∧ d.scale = scale := by
  constructor
  · intro h
    obtain ⟨_, hd⟩ := Option.dite_none_right_eq_some.mp h
    cases hd
    exact ⟨rfl, rfl, rfl⟩
  · rintro ⟨rfl, rfl, rfl⟩
    exact dif_pos ⟨d.mantissa_lt, d.scale_le⟩

theorem exists_make? (negative : Bool) {mantissa scale : Nat} (hm : mantissa < mantissaLimit)
    (hs : scale ≤ maxScale) : ∃ d, make? negative mantissa scale = some d :=
  ⟨_, dif_pos ⟨hm, hs⟩⟩

theorem make?_eq_none {negative : Bool} {mantissa scale : Nat} (hm : mantissaLimit ≤ mantissa) :
    make? negative mantissa scale = none :=
  dif_neg fun h => absurd h.1 (Nat.not_lt_of_le hm)

/-- What has a scale already is made as it is. -/
theorem fit?_scaled {negative : Bool} {n scale : Nat} {d : Decimal}
    (h : make? negative n scale = some d) :
    fit? negative n (10 ^ scale) scale = some d := by
  cases scale with
  | zero =>
    have hround : roundHalfEven n (10 ^ 0) = n := by
      simpa using roundHalfEven_mul n Nat.one_pos
    rw [fit?, hround, h]
  | succ scale =>
    have hround : roundHalfEven (n * Nat.pow 10 (scale + 1)) (10 ^ (scale + 1)) = n :=
      roundHalfEven_mul n (Nat.pow_pos (by decide))
    rw [fit?, hround, h]

/-! ## Reading -/

theorem readFraction_exact {m scale : Nat} {cs : List Char} (hs : scale + cs.length ≤ maxScale)
    (hm : Digits.valueFrom m cs < mantissaLimit) :
    readFraction m scale cs = some (Digits.valueFrom m cs, scale + cs.length) := by
  induction cs generalizing m scale with
  | nil => rfl
  | cons c cs ih =>
    rw [Digits.valueFrom_cons] at hm ⊢
    rw [List.length_cons] at hs ⊢
    have hnext := Nat.lt_of_le_of_lt (Digits.le_valueFrom _ _) hm
    rw [readFraction]
    simp only [if_pos (show scale < maxScale ∧ _ from ⟨by omega, hnext⟩)]
    rw [ih (by omega) hm, Nat.add_right_comm, Nat.add_assoc]

/-- Digits are read exactly if all of them fit. -/
theorem ofDigits?_exact {whole fraction : List Char} (hs : fraction.length ≤ maxScale)
    (hm : Digits.valueFrom (Digits.value whole) fraction < mantissaLimit) :
    ofDigits? whole fraction
      = make? false (Digits.valueFrom (Digits.value whole) fraction) fraction.length := by
  have hwhole := Nat.lt_of_le_of_lt (Digits.le_valueFrom (Digits.value whole) fraction) hm
  rw [ofDigits?]
  simp only [if_pos hwhole]
  rw [readFraction_exact (by omega) hm, Nat.zero_add]
  rfl

/-! ## Adding -/

/-- The mantissa of a sum at the larger scale. -/
def sum (a b : Decimal) : Int :=
  a.signed * 10 ^ (max a.scale b.scale - a.scale) + b.signed * 10 ^ (max a.scale b.scale - b.scale)

theorem add?_eq {a b : Decimal} (ha : a.isZero = false) (hb : b.isZero = false) :
    a.add? b = fit? (a.sum b < 0) (a.sum b).natAbs (10 ^ max a.scale b.scale)
      (max a.scale b.scale) := by
  rw [add?, ha, hb]
  rfl

theorem fixedPoint_sum (a b : Decimal) :
    a.fixedPoint + b.fixedPoint = a.sum b * 10 ^ (maxScale - max a.scale b.scale) := by
  have ha := a.scale_le
  have hb := b.scale_le
  have hpow : ∀ s ≤ max a.scale b.scale, (10 : Int) ^ (maxScale - s)
      = 10 ^ (max a.scale b.scale - s) * 10 ^ (maxScale - max a.scale b.scale) := by
    intro s hs
    rw [← Int.pow_add]
    congr 1
    unfold maxScale
    omega
  rw [fixedPoint, fixedPoint, hpow _ (Nat.le_max_left ..), hpow _ (Nat.le_max_right ..), sum]
  ring

/-- A sum is exact if it fits at the larger scale. -/
theorem add?_exact {a b : Decimal} (h : (a.sum b).natAbs < mantissaLimit) :
    ∃ d, a.add? b = some d ∧ d.fixedPoint = a.fixedPoint + b.fixedPoint := by
  cases ha : a.isZero with
  | true => exact ⟨b, by rw [add?, if_pos ha], by rw [fixedPoint_of_isZero ha, Int.zero_add]⟩
  | false =>
    cases hb : b.isZero with
    | true =>
      exact ⟨a, by rw [add?, ha, hb]; rfl, by rw [fixedPoint_of_isZero hb, Int.add_zero]⟩
    | false =>
      obtain ⟨d, hd⟩ := exists_make? (a.sum b < 0) h
        (Nat.max_le.mpr ⟨a.scale_le, b.scale_le⟩)
      obtain ⟨hnegative, hmantissa, hscale⟩ := make?_eq_some.mp hd
      refine ⟨d, ?_, ?_⟩
      · rw [add?_eq ha hb, fit?_scaled hd]
      · rw [fixedPoint_sum, fixedPoint, hscale, signed, hnegative, hmantissa]
        congr 1
        simp only [decide_eq_true_eq]
        split <;> omega

end Decimal

end XQuery
