import XQuery.Proofs.Number.Quotients

/-!
# Decimal numbers and their values

Numbers of one value may be written with different places behind the point.
Comparing looks at the value alone. So do quotients, remainders and the form
without trailing zeros, once the sign is dropped: of two numbers of the same
size one is the other with zeros behind it (`Decimal.Extends`). A zero may have
a sign, which does not count; sums of numbers without sign have none.
-/

namespace XQuery

theorem roundHalfEven_mul_mul (num den : Nat) {k : Nat} (hk : 0 < k) :
    roundHalfEven (num * k) (den * k) = roundHalfEven num den := by
  have htwice : 2 * (num % den * k) = 2 * (num % den) * k := by rw [Nat.mul_assoc]
  have hbelow : 2 * (num % den) * k < den * k ↔ 2 * (num % den) < den := Nat.mul_lt_mul_right hk
  have habove : den * k < 2 * (num % den) * k ↔ den < 2 * (num % den) := Nat.mul_lt_mul_right hk
  unfold roundHalfEven
  simp only [Nat.mul_div_mul_right _ _ hk, Nat.mul_mod_mul_right, htwice, hbelow, habove]

theorem compare_mul_pos {x y k : Int} (hk : 0 < k) : compare (x * k) (y * k) = compare x y := by
  have hlt : x * k < y * k ↔ x < y := Int.mul_lt_mul_right hk
  have heq : x * k = y * k ↔ x = y := Int.mul_eq_mul_right_iff (Int.ne_of_gt hk)
  simp only [compare, compareOfLessAndEq, hlt, heq]

namespace Decimal

variable {a b : Decimal}

/-! ## Comparing -/

/-- Bringing two numbers to one scale moves both by the same factor. -/
theorem signed_mul_pow (a b : Decimal) :
    a.signed * Int.pow 10 b.scale * (10 ^ (maxScale - a.scale) * 10 ^ (maxScale - b.scale))
      = a.fixedPoint * 10 ^ maxScale := by
  have hscale : b.scale ≤ maxScale := b.scale_le
  have hpow : (10 : Int) ^ b.scale * 10 ^ (maxScale - b.scale) = 10 ^ maxScale := by
    rw [← Int.pow_add, Nat.add_sub_cancel' hscale]
  rw [← hpow, fixedPoint]
  show a.signed * (10 : Int) ^ b.scale * _ = _
  ring

theorem pow_pos_scales (a b : Decimal) :
    (0 : Int) < 10 ^ (maxScale - a.scale) * 10 ^ (maxScale - b.scale) :=
  Int.mul_pos (Int.pow_pos (by decide)) (Int.pow_pos (by decide))

/-- The order of decimal numbers is the order of their values. -/
theorem cmp_eq (a b : Decimal) : a.cmp b = compare a.fixedPoint b.fixedPoint := by
  have hone : (0 : Int) < 10 ^ maxScale := Int.pow_pos (by decide)
  rw [cmp, ← compare_mul_pos (pow_pos_scales a b), signed_mul_pow,
    Int.mul_comm (10 ^ (maxScale - a.scale)), signed_mul_pow, compare_mul_pos hone]

theorem equal_iff : a.equal b = true ↔ a.fixedPoint = b.fixedPoint := by
  rw [equal, beq_iff_eq, ← Int.compare_eq_eq, ← Int.compare_eq_eq, ← cmp_eq, cmp]

theorem isZero_iff {d : Decimal} : d.isZero = true ↔ d.fixedPoint = 0 := by
  have hpow : 0 < 10 ^ (maxScale - d.scale) := Nat.pow_pos (by decide)
  rw [← Int.natAbs_eq_zero, natAbs_fixedPoint, Nat.mul_eq_zero, isZero, beq_iff_eq]
  omega

/-! ## Signs -/

theorem signed_nonneg {d : Decimal} (h : d.negative = false) : 0 ≤ d.signed := by
  rw [signed_of_nonneg h]
  exact Int.natCast_nonneg _

theorem fixedPoint_nonneg {d : Decimal} (h : d.negative = false) : 0 ≤ d.fixedPoint :=
  Int.mul_nonneg (signed_nonneg h) (Int.pow_nonneg (by decide))

/-- The sign of zero does not count. -/
theorem fixedPoint_neg_iff (d : Decimal) :
    d.fixedPoint < 0 ↔ (d.negative && !d.isZero) = true := by
  have hzero : d.mantissa * 10 ^ (maxScale - d.scale) = 0 ↔ d.mantissa = 0 := by simp
  rw [fixedPoint_eq, sgn, isZero]
  generalize d.mantissa * 10 ^ (maxScale - d.scale) = size at hzero ⊢
  cases d.negative with
  | false =>
    simp only [Bool.false_and, Bool.false_eq_true, if_false, iff_false]
    omega
  | true =>
    simp only [Bool.true_and, Bool.not_eq_true', beq_eq_false_iff_ne, if_true]
    omega

theorem fit?_negative {negative : Bool} {num den limit : Nat} {d : Decimal}
    (h : fit? negative num den limit = some d) : d.negative = negative := by
  induction limit with
  | zero => exact (make?_eq_some.mp h).1
  | succ limit ih =>
    rw [fit?] at h
    split at h
    · next made hmade =>
        cases h
        exact (make?_eq_some.mp hmade).1
    · exact ih h

/-- A sum of numbers without sign has none. -/
theorem add?_nonneg {d : Decimal} (ha : a.negative = false) (hb : b.negative = false)
    (h : a.add? b = some d) : d.negative = false := by
  by_cases hza : a.isZero = true
  · rw [add?, if_pos hza] at h
    cases h
    exact hb
  · by_cases hzb : b.isZero = true
    · rw [add?, if_neg hza, if_pos hzb] at h
      cases h
      exact ha
    · rw [add?_eq (by simpa using hza) (by simpa using hzb)] at h
      have hsum : 0 ≤ a.sum b :=
        Int.add_nonneg (Int.mul_nonneg (signed_nonneg ha) (Int.pow_nonneg (by decide)))
          (Int.mul_nonneg (signed_nonneg hb) (Int.pow_nonneg (by decide)))
      rw [fit?_negative h]
      simpa using hsum

/-! ## More places -/

/-- The number `b` is `a` with more places, up to the sign. -/
def Extends (a b : Decimal) : Prop :=
  ∃ k, b.scale = a.scale + k ∧ b.mantissa = a.mantissa * 10 ^ k

/-- Of two numbers of the same size one is the other with more places. -/
theorem extends_total (h : a.fixedPoint.natAbs = b.fixedPoint.natAbs) :
    Extends a b ∨ Extends b a := by
  -- the case where `b` has at least as many places
  have hle : ∀ {c d : Decimal}, c.fixedPoint.natAbs = d.fixedPoint.natAbs → c.scale ≤ d.scale →
      Extends c d := by
    intro c d h hscale
    have hmax : d.scale ≤ maxScale := d.scale_le
    refine ⟨d.scale - c.scale, by omega, ?_⟩
    have hpow : 10 ^ (maxScale - c.scale)
        = 10 ^ (d.scale - c.scale) * 10 ^ (maxScale - d.scale) := by
      rw [← Nat.pow_add]
      congr 1
      omega
    rw [natAbs_fixedPoint, natAbs_fixedPoint, hpow, ← Nat.mul_assoc] at h
    exact (Nat.eq_of_mul_eq_mul_right (Nat.pow_pos (by decide)) h).symm
  rcases Nat.le_total a.scale b.scale with hscale | hscale
  · exact .inl (hle h hscale)
  · exact .inr (hle h.symm hscale)

theorem Extends.natAbs_eq (h : Extends a b) : a.fixedPoint.natAbs = b.fixedPoint.natAbs := by
  obtain ⟨k, hscale, hmantissa⟩ := h
  have hmax : b.scale ≤ maxScale := b.scale_le
  rw [natAbs_fixedPoint, natAbs_fixedPoint, hmantissa, Nat.mul_assoc, ← Nat.pow_add]
  congr 2
  omega

theorem make?_abs (negative : Bool) (mantissa scale : Nat) :
    (make? negative mantissa scale).map abs = make? false mantissa scale := by
  unfold make?
  split
  · rfl
  · rfl

theorem fit?_abs (negative : Bool) (num den limit : Nat) :
    (fit? negative num den limit).map abs = fit? false num den limit := by
  induction limit with
  | zero => exact make?_abs negative _ _
  | succ limit ih =>
    have hmade := make?_abs negative (roundHalfEven (num * Nat.pow 10 (limit + 1)) den) (limit + 1)
    rw [fit?, fit?, ← hmade]
    cases make? negative (roundHalfEven (num * Nat.pow 10 (limit + 1)) den) (limit + 1) with
    | some d => rfl
    | none => exact ih

theorem abs_divNat (d : Decimal) (n : Nat) : (d.divNat n).abs = d.abs.divNat n := by
  have hfit := fit?_abs d.negative d.mantissa (n * Nat.pow 10 d.scale) maxScale
  have hquotient : d.abs.divNat n
      = (fit? false d.mantissa (n * Nat.pow 10 d.scale) maxScale).getD zero := rfl
  rw [hquotient, ← hfit, divNat]
  cases fit? d.negative d.mantissa (n * Nat.pow 10 d.scale) maxScale with
  | some q => rfl
  | none => rfl

theorem fit?_mul_mul (negative : Bool) (num den limit : Nat) {k : Nat} (hk : 0 < k) :
    fit? negative (num * k) (den * k) limit = fit? negative num den limit := by
  induction limit with
  | zero => rw [fit?, fit?, roundHalfEven_mul_mul _ _ hk]
  | succ limit ih =>
    rw [fit?, fit?, Nat.mul_right_comm, roundHalfEven_mul_mul _ _ hk, ih]

theorem scaled_eq_mul_pow {k : Nat} (hscale : b.scale = a.scale + k) (n : Nat) :
    b.scaled n = a.scaled n * 10 ^ k := by
  rw [scaled, scaled, hscale, Nat.pow_add, Nat.mul_assoc]

/-- A quotient does not depend on the places of the dividend. -/
theorem Extends.divNat_abs (h : Extends a b) (n : Nat) : (a.divNat n).abs = (b.divNat n).abs := by
  obtain ⟨k, hscale, hmantissa⟩ := h
  rw [abs_divNat, abs_divNat]
  show (fit? false a.mantissa (a.scaled n) maxScale).getD zero
    = (fit? false b.mantissa (b.scaled n) maxScale).getD zero
  rw [hmantissa, scaled_eq_mul_pow hscale, fit?_mul_mul _ _ _ _ (Nat.pow_pos (by decide))]

/-- A remainder has the places of the dividend. -/
theorem Extends.modNat (h : Extends a b) (n : Nat) : Extends (a.modNat n) (b.modNat n) := by
  obtain ⟨k, hscale, hmantissa⟩ := h
  refine ⟨k, hscale, ?_⟩
  show b.mantissa % b.scaled n = a.mantissa % a.scaled n * 10 ^ k
  rw [hmantissa, scaled_eq_mul_pow hscale, Nat.mul_mod_mul_right]

/-! ## No trailing zeros -/

theorem stripZeros_mul_pow (m n k : Nat) : stripZeros (m * 10 ^ k) (n + k) = stripZeros m n := by
  induction k with
  | zero => simp
  | succ k ih =>
    have hpow : m * 10 ^ (k + 1) = m * 10 ^ k * 10 := by rw [Nat.pow_succ, Nat.mul_assoc]
    rw [← Nat.add_assoc, stripZeros, hpow, if_pos (Nat.mul_mod_left _ _),
      Nat.mul_div_cancel _ (by decide), ih]

theorem stripZeros_mul (m n : Nat) :
    (stripZeros m n).1 * 10 ^ (n - (stripZeros m n).2) = m := by
  induction n generalizing m with
  | zero => simp [stripZeros]
  | succ n ih =>
    unfold stripZeros
    split
    · next hzero =>
        have hle := (stripZeros_le (m / 10) n).2
        rw [Nat.succ_sub hle, Nat.pow_succ, ← Nat.mul_assoc, ih]
        omega
    · simp

theorem Extends.normalize_abs (h : Extends a b) : a.abs.normalize = b.abs.normalize := by
  obtain ⟨k, hscale, hmantissa⟩ := h
  have hstrip : stripZeros b.mantissa b.scale = stripZeros a.mantissa a.scale := by
    rw [hscale, hmantissa, stripZeros_mul_pow]
  simp [normalize, abs, hstrip]

/-- Removing trailing zeros only takes places away. -/
theorem extends_normalize (d : Decimal) : Extends d.normalize d := by
  have hle := (stripZeros_le d.mantissa d.scale).2
  refine ⟨d.scale - d.normalize.scale, ?_, ?_⟩
  · exact (Nat.add_sub_cancel' hle).symm
  · exact (stripZeros_mul d.mantissa d.scale).symm

theorem isZero_normalize (d : Decimal) : d.normalize.isZero = d.isZero := by
  rw [Bool.eq_iff_iff, isZero_iff, isZero_iff, ← Int.natAbs_eq_zero, ← Int.natAbs_eq_zero,
    d.extends_normalize.natAbs_eq]

/-- Nothing is left behind the point of zero. -/
theorem scale_normalize_of_isZero {d : Decimal} (h : d.isZero = true) :
    d.normalize.scale = 0 := by
  have hmantissa : d.mantissa = 0 := by simpa [isZero] using h
  have hstrip : ∀ n, (stripZeros 0 n).2 = 0 := by
    intro n
    induction n with
    | zero => rfl
    | succ n ih => exact ih
  show (stripZeros d.mantissa d.scale).2 = 0
  rw [hmantissa, hstrip]

end Decimal

end XQuery
