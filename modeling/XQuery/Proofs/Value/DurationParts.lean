import Mathlib.Tactic.LinearCombination
import XQuery.Proofs.Number.Quotients
import XQuery.Value.Duration

/-!
# The parts of durations

The years and months of a duration, and its days, hours, minutes and seconds,
are within their bounds and have its sign (`Duration.Parts`). Years and months
make up all months. The whole parts of the seconds are taken from rounded
quotients, and they make up all seconds exactly if none of the three quotients
carries (`Duration.parts_sumsUp_iff`); a long fraction just below an hour does.
-/

namespace XQuery

namespace Duration

/-- A part has the sign of the total, and is zero if the total is. -/
def SameSign (total part : Int) : Prop := (0 ≤ total → 0 ≤ part) ∧ (total ≤ 0 → part ≤ 0)

/-- The parts of a duration are within their bounds, and none has the opposite sign. -/
structure Parts (v : Duration) : Prop where
  months : v.months = 12 * v.years + v.monthsPart
  monthsPart_lt : v.monthsPart.natAbs < 12
  days_whole : 10 ^ Decimal.maxScale ∣ v.days.fixedPoint
  hours_whole : 10 ^ Decimal.maxScale ∣ v.hours.fixedPoint
  minutes_whole : 10 ^ Decimal.maxScale ∣ v.minutes.fixedPoint
  hours_lt : v.hours.fixedPoint.natAbs < 24 * 10 ^ Decimal.maxScale
  minutes_lt : v.minutes.fixedPoint.natAbs < 60 * 10 ^ Decimal.maxScale
  secondsPart_lt : v.secondsPart.fixedPoint.natAbs < 60 * 10 ^ Decimal.maxScale
  years_sign : SameSign v.months v.years
  monthsPart_sign : SameSign v.months v.monthsPart
  days_sign : SameSign v.seconds.fixedPoint v.days.fixedPoint
  hours_sign : SameSign v.seconds.fixedPoint v.hours.fixedPoint
  minutes_sign : SameSign v.seconds.fixedPoint v.minutes.fixedPoint
  secondsPart_sign : SameSign v.seconds.fixedPoint v.secondsPart.fixedPoint

/-- Days, hours, minutes and seconds make up all seconds. -/
def SumsUp (v : Duration) : Prop :=
  v.seconds.fixedPoint = 86400 * v.days.fixedPoint + 3600 * v.hours.fixedPoint
    + 60 * v.minutes.fixedPoint + v.secondsPart.fixedPoint

instance (v : Duration) : Decidable v.SumsUp := Int.instDecidableEq _ _

/-! ## Months -/

theorem months_eq (v : Duration) : v.months = 12 * v.years + v.monthsPart :=
  (Int.mul_tdiv_add_tmod v.months 12).symm

theorem natAbs_monthsPart_lt (v : Duration) : v.monthsPart.natAbs < 12 := by
  rw [monthsPart, Int.natAbs_tmod]
  exact Nat.mod_lt _ (by decide)

theorem months_signs (v : Duration) :
    SameSign v.months v.years ∧ SameSign v.months v.monthsPart := by
  have hlt := v.natAbs_monthsPart_lt
  have heq := v.months_eq
  rcases Int.le_total 0 v.months with h | h
  · have hnonneg : 0 ≤ v.monthsPart := Int.tmod_nonneg 12 h
    unfold SameSign
    omega
  · have hnonpos : v.monthsPart ≤ 0 := by
      have hneg : 0 ≤ (-v.months).tmod 12 := Int.tmod_nonneg 12 (by omega)
      rw [Int.neg_tmod] at hneg
      unfold monthsPart
      omega
    unfold SameSign
    omega

/-! ## Seconds -/

theorem sameSign_of_mantissa (d part : Decimal) (hnegative : part.negative = d.negative)
    (hzero : d.mantissa = 0 → part.mantissa = 0) : SameSign d.fixedPoint part.fixedPoint := by
  have hsgn : part.sgn = d.sgn := by rw [Decimal.sgn, Decimal.sgn, hnegative]
  have hd : d.mantissa * 10 ^ (Decimal.maxScale - d.scale) = 0 ↔ d.mantissa = 0 := by
    simp
  have hpart : part.mantissa * 10 ^ (Decimal.maxScale - part.scale) = 0 ↔ part.mantissa = 0 := by
    simp
  rw [← hd, ← hpart] at hzero
  rw [Decimal.fixedPoint_eq, Decimal.fixedPoint_eq, hsgn]
  generalize d.mantissa * 10 ^ (Decimal.maxScale - d.scale) = x at hzero ⊢
  generalize part.mantissa * 10 ^ (Decimal.maxScale - part.scale) = y at hzero ⊢
  unfold SameSign Decimal.sgn
  cases d.negative
  all_goals
    simp only [Bool.false_eq_true, if_true, if_false]
    omega

/-- The whole part of the quotient of a number that is zero is zero. -/
theorem sameSign_trunc_divNat (d rest : Decimal) (hnegative : rest.negative = d.negative)
    (hzero : d.mantissa = 0 → rest.mantissa = 0) {n : Nat} (hn : 20 ≤ n) :
    SameSign d.fixedPoint (rest.divNat n).trunc.fixedPoint := by
  refine sameSign_of_mantissa _ _ ?_ fun hd => ?_
  · rw [Decimal.negative_trunc, (rest.divNat_spec (n := n) (by omega)).1, hnegative]
  · have hrest := hzero hd
    have hcarries : ¬rest.Carries n := Decimal.not_carries_of_lt hn (by rw [hrest]; decide)
    rw [rest.mantissa_trunc_divNat hn, hrest, if_neg hcarries, Nat.zero_div]

theorem whole_trunc (d : Decimal) : 10 ^ Decimal.maxScale ∣ d.trunc.fixedPoint := by
  rw [Decimal.fixedPoint_trunc]
  refine ⟨d.sgn * d.trunc.mantissa, ?_⟩
  push_cast
  ring

/-- A whole part of fewer than `bound` units. -/
theorem natAbs_trunc_lt {d : Decimal} {bound : Nat} (h : d.trunc.mantissa < bound) :
    d.trunc.fixedPoint.natAbs < bound * 10 ^ Decimal.maxScale := by
  rw [Decimal.natAbs_fixedPoint]
  exact Nat.mul_lt_mul_of_pos_right h (Nat.pow_pos (by decide))

/-- The whole part of a remainder on division by `m` has fewer than `bound` units of `n` if there
are `bound` of them in `m`. -/
theorem natAbs_trunc_modNat_lt (d : Decimal) {m bound n k : Nat} (hm : m = bound * n)
    (hpos : 0 < m) (hn : 20 ≤ n) (hk : k ≤ Decimal.maxScale)
    (hbound : bound * 10 ^ k + 1 < Decimal.mantissaLimit)
    (hroom : ∀ s ≤ Decimal.maxScale, 2 * 10 ^ k ≤ n * 10 ^ s →
      Decimal.mantissaLimit ≤ (bound - 1) * (n * 10 ^ s)) :
    ((d.modNat m).divNat n).trunc.fixedPoint.natAbs < bound * 10 ^ Decimal.maxScale := by
  refine natAbs_trunc_lt (Decimal.trunc_divNat_lt hn hk ?_ hbound hroom)
  have hscaled : d.scaled m = bound * (d.modNat m).scaled n := by
    rw [hm]
    exact Nat.mul_assoc bound n _
  rw [← hscaled]
  exact d.mantissa_modNat_lt hpos

theorem natAbs_hours_lt (v : Duration) :
    v.hours.fixedPoint.natAbs < 24 * 10 ^ Decimal.maxScale := by
  unfold hours
  exact natAbs_trunc_modNat_lt v.seconds (k := 27) rfl (by decide) (by decide) (by decide)
    (by decide) (by decide +kernel)

theorem natAbs_minutes_lt (v : Duration) :
    v.minutes.fixedPoint.natAbs < 60 * 10 ^ Decimal.maxScale := by
  unfold minutes
  exact natAbs_trunc_modNat_lt v.seconds (k := 27) rfl (by decide) (by decide) (by decide)
    (by decide) (by decide +kernel)

theorem natAbs_secondsPart_lt (v : Duration) :
    v.secondsPart.fixedPoint.natAbs < 60 * 10 ^ Decimal.maxScale := by
  have hscale : v.seconds.scale ≤ Decimal.maxScale := v.seconds.scale_le
  have hpow : v.seconds.scaled 60 * 10 ^ (Decimal.maxScale - v.seconds.scale)
      = 60 * 10 ^ Decimal.maxScale := by
    rw [Decimal.scaled, Nat.mul_assoc, ← Nat.pow_add, Nat.add_sub_cancel' hscale]
  rw [Decimal.natAbs_fixedPoint, ← hpow]
  exact Nat.mul_lt_mul_of_pos_right (v.seconds.mantissa_modNat_lt (by decide))
    (Nat.pow_pos (by decide))

theorem mantissa_modNat_eq_zero {d : Decimal} (n : Nat) (h : d.mantissa = 0) :
    (d.modNat n).mantissa = 0 := by
  show d.mantissa % _ = 0
  rw [h, Nat.zero_mod]

theorem seconds_signs (v : Duration) :
    SameSign v.seconds.fixedPoint v.days.fixedPoint ∧
      SameSign v.seconds.fixedPoint v.hours.fixedPoint ∧
      SameSign v.seconds.fixedPoint v.minutes.fixedPoint ∧
      SameSign v.seconds.fixedPoint v.secondsPart.fixedPoint := by
  unfold days hours minutes secondsPart
  refine ⟨?_, ?_, ?_, ?_⟩
  · exact sameSign_trunc_divNat v.seconds v.seconds rfl id (by decide)
  · exact sameSign_trunc_divNat v.seconds (v.seconds.modNat 86400) rfl
      (mantissa_modNat_eq_zero 86400) (by decide)
  · exact sameSign_trunc_divNat v.seconds (v.seconds.modNat 3600) rfl
      (mantissa_modNat_eq_zero 3600) (by decide)
  · exact sameSign_of_mantissa v.seconds (v.seconds.modNat 60) rfl (mantissa_modNat_eq_zero 60)

theorem seconds_whole (v : Duration) :
    10 ^ Decimal.maxScale ∣ v.days.fixedPoint ∧ 10 ^ Decimal.maxScale ∣ v.hours.fixedPoint ∧
      10 ^ Decimal.maxScale ∣ v.minutes.fixedPoint := by
  unfold days hours minutes
  exact ⟨whole_trunc _, whole_trunc _, whole_trunc _⟩

theorem parts_bounded (v : Duration) : Parts v := by
  obtain ⟨hyears, hmonths⟩ := v.months_signs
  obtain ⟨hdays, hhours, hminutes, hseconds⟩ := v.seconds_signs
  obtain ⟨hwholeDays, hwholeHours, hwholeMinutes⟩ := v.seconds_whole
  exact ⟨v.months_eq, v.natAbs_monthsPart_lt, hwholeDays, hwholeHours, hwholeMinutes,
    v.natAbs_hours_lt, v.natAbs_minutes_lt, v.natAbs_secondsPart_lt, hyears, hmonths, hdays, hhours,
    hminutes, hseconds⟩

/-! ## The sum of the parts -/

/-- The seconds that are carried into days, hours and minutes. -/
def carried (v : Duration) : Nat :=
  86400 * v.seconds.carry 86400 + 3600 * (v.seconds.modNat 86400).carry 3600
    + 60 * (v.seconds.modNat 3600).carry 60

/-- The parts exceed the seconds by what is carried. -/
theorem parts_eq (v : Duration) :
    86400 * v.days.fixedPoint + 3600 * v.hours.fixedPoint + 60 * v.minutes.fixedPoint
      + v.secondsPart.fixedPoint
      = v.seconds.fixedPoint + v.seconds.sgn * (v.carried * 10 ^ Decimal.maxScale : Nat) := by
  have hdays := v.seconds.divNat_add_modNat (n := 86400) (by decide)
  have hhours := (v.seconds.modNat 86400).divNat_add_modNat (n := 3600) (by decide)
  have hminutes := (v.seconds.modNat 3600).divNat_add_modNat (n := 60) (by decide)
  have hsgn : ∀ n, (v.seconds.modNat n).sgn = v.seconds.sgn := fun _ => rfl
  rw [Decimal.modNat_modNat _ (by decide), hsgn] at hhours hminutes
  unfold days hours minutes secondsPart carried
  push_cast at hdays hhours hminutes ⊢
  linear_combination hdays + hhours + hminutes

theorem sumsUp_iff_carried (v : Duration) : v.SumsUp ↔ v.carried = 0 := by
  have hone : 0 < 10 ^ Decimal.maxScale := Nat.pow_pos (by decide)
  have hsgn : v.seconds.sgn = 1 ∨ v.seconds.sgn = -1 := by
    unfold Decimal.sgn
    cases v.seconds.negative
    · exact .inl rfl
    · exact .inr rfl
  have hexcess : v.carried * 10 ^ Decimal.maxScale = 0 ↔ v.carried = 0 := by
    rw [Nat.mul_eq_zero]
    omega
  rw [SumsUp, v.parts_eq, ← hexcess]
  generalize v.carried * 10 ^ Decimal.maxScale = excess
  rcases hsgn with hsgn | hsgn
  all_goals
    rw [hsgn]
    omega

theorem carried_eq_zero (v : Duration) :
    v.carried = 0 ↔ ¬v.seconds.Carries 86400 ∧ ¬(v.seconds.modNat 86400).Carries 3600 ∧
      ¬(v.seconds.modNat 3600).Carries 60 := by
  unfold carried Decimal.carry
  split <;> split <;> split <;> simp [*]

/-- The parts of every duration are within their bounds and have its sign, and its months are made
up of years and months. Its seconds are made up of days, hours, minutes and seconds exactly if no
quotient is rounded up to a whole number, and always if the seconds have few digits. -/
theorem parts_sumsUp_iff (v : Duration) :
    Parts v ∧
    (v.SumsUp ↔ ¬v.seconds.Carries 86400 ∧ ¬(v.seconds.modNat 86400).Carries 3600 ∧
      ¬(v.seconds.modNat 3600).Carries 60) ∧
    (v.seconds.mantissa < 2 ^ 64 → v.SumsUp) := by
  have hiff := v.sumsUp_iff_carried.trans v.carried_eq_zero
  refine ⟨v.parts_bounded, hiff, fun hlt => hiff.mpr ?_⟩
  have hmod : ∀ n, (v.seconds.modNat n).mantissa < 2 ^ 64 := fun n =>
    Nat.lt_of_le_of_lt (Nat.mod_le _ _) hlt
  exact ⟨Decimal.not_carries_of_lt (by decide) hlt,
    Decimal.not_carries_of_lt (by decide) (hmod 86400),
    Decimal.not_carries_of_lt (by decide) (hmod 3600)⟩

/-- Just below an hour the quotient is rounded up, and the hour is counted besides its minutes. -/
theorem hours_exceed_seconds :
    ∃ v, parse "PT3599.9999999999999999999999999S" .duration = .ok v ∧
      v.hours.text = "1" ∧ v.minutes.text = "59" ∧
      v.secondsPart.text = "59.9999999999999999999999999" ∧ ¬v.SumsUp := by
  refine ⟨⟨0, ⟨false, 35999999999999999999999999999, 25, by decide, by decide⟩, .duration⟩,
    rfl, ?_, ?_, ?_, ?_⟩
  all_goals decide +kernel

end Duration

end XQuery
