import XQuery.Proofs.Number.Exactness

/-!
# Whole parts of rounded quotients

A quotient is rounded to the places that fit before its whole part is taken, so
that one just below a whole number is carried to it (`Decimal.Carries`). The
whole part and the remainder then add up to too much by the divisor
(`Decimal.divNat_add_modNat`). No carry is possible below `2 ^ 64`, nor where
the next whole number itself leaves enough places.
-/

namespace XQuery

theorem roundHalfEven_le (num den : Nat) : roundHalfEven num den ≤ num / den + 1 := by
  unfold roundHalfEven
  simp only
  split
  · omega
  · split
    · omega
    · split <;> omega

theorem roundHalfEven_scaled_le {num bound den e k : Nat} (hnum : num ≤ bound * den)
    (he : e < k) : roundHalfEven (num * 10 ^ (e + 1)) den ≤ bound * 10 ^ k + 1 := by
  have hpow : 10 ^ (e + 1) ≤ 10 ^ k := Nat.pow_le_pow_right (by decide) he
  have hdiv : num * 10 ^ (e + 1) / den ≤ bound * 10 ^ k := by
    refine Nat.div_le_of_le_mul ?_
    calc num * 10 ^ (e + 1)
        ≤ bound * den * 10 ^ k := Nat.mul_le_mul hnum hpow
      _ = den * (bound * 10 ^ k) := by rw [Nat.mul_comm bound, Nat.mul_assoc]
  exact Nat.le_trans (roundHalfEven_le _ _) (Nat.add_le_add_right hdiv 1)

/-- A quotient is rounded up if its remainder is over a half, or a half behind an odd number. -/
theorem roundHalfEven_mul_add {den b : Nat} (n : Nat) (hb : b < den) :
    roundHalfEven (den * n + b) den
      = n + if den < 2 * b ∨ 2 * b = den ∧ n % 2 = 1 then 1 else 0 := by
  have hdiv : (den * n + b) / den = n := by
    rw [Nat.mul_add_div (by omega), Nat.div_eq_of_lt hb, Nat.add_zero]
  have hmod : (den * n + b) % den = b := by
    rw [Nat.mul_add_mod, Nat.mod_eq_of_lt hb]
  unfold roundHalfEven
  simp only [hdiv, hmod]
  split
  · rw [if_neg (by omega), Nat.add_zero]
  · split
    · rw [if_pos (by omega)]
    · split
      · rw [if_neg (by omega), Nat.add_zero]
      · rw [if_pos (by omega)]

/-- Rounding to an even number of places in one carries into the whole part exactly if at most half
a place is missing from the next whole number. -/
theorem roundHalfEven_scaled_div (num : Nat) {den places : Nat} (hden : 0 < den)
    (hpos : 0 < places) (heven : places % 2 = 0) :
    roundHalfEven (num * places) den / places
      = num / den + if 2 * ((den - num % den) * places) ≤ den then 1 else 0 := by
  obtain ⟨q, hq⟩ : ∃ q, num / den = q := ⟨_, rfl⟩
  obtain ⟨r, hr⟩ : ∃ r, num % den = r := ⟨_, rfl⟩
  have hrlt : r < den := hr ▸ Nat.mod_lt _ hden
  -- the remainder has `a` of these places, and `b` is left over
  obtain ⟨a, ha⟩ : ∃ a, r * places / den = a := ⟨_, rfl⟩
  obtain ⟨b, hb⟩ : ∃ b, r * places % den = b := ⟨_, rfl⟩
  have hblt : b < den := hb ▸ Nat.mod_lt _ hden
  have halt : a < places := by
    rw [← ha]
    exact Nat.div_lt_of_lt_mul (Nat.mul_lt_mul_of_pos_right hrlt hpos)
  have hrem : den * a + b = r * places := by
    rw [← ha, ← hb]
    exact Nat.div_add_mod _ _
  have hnum : num * places = den * (q * places + a) + b := by
    rw [Nat.mul_add, Nat.add_assoc, hrem, ← Nat.mul_assoc, ← Nat.add_mul, ← hq, ← hr,
      Nat.div_add_mod]
  have hgap : (den - r) * places + (den * a + b) = den * places := by
    rw [hrem, ← Nat.add_mul, Nat.sub_add_cancel (Nat.le_of_lt hrlt)]
  have hparity : (q * places + a) % 2 = a % 2 := by
    rw [Nat.add_mod, Nat.mul_mod, heven, Nat.mul_zero, Nat.zero_mod, Nat.zero_add, Nat.mod_mod]
  have hwhole : ∀ x, (q * places + x) / places = q + x / places := by
    intro x
    rw [Nat.mul_comm, Nat.mul_add_div hpos]
  rw [hq, hr, hnum, roundHalfEven_mul_add _ hblt, hparity, Nat.add_assoc, hwhole]
  congr 1
  by_cases hlast : a + 1 = places
  · have hone : den * places = den * a + den := by rw [← hlast, Nat.mul_add, Nat.mul_one]
    by_cases hup : den ≤ 2 * b
    · rw [if_pos (by omega), if_pos (by omega), hlast, Nat.div_self hpos]
    · rw [if_neg (by omega), if_neg (by omega), Nat.add_zero, Nat.div_eq_of_lt halt]
  · have htwo : den * (a + 2) ≤ den * places := Nat.mul_le_mul_left den (by omega)
    rw [Nat.mul_add] at htwo
    rw [if_neg (c := 2 * ((den - r) * places) ≤ den) (by omega), Nat.div_eq_of_lt]
    split <;> omega

/-- A short dividend that is carried leaves room for another place. -/
theorem roundHalfEven_lt_of_carry {num den e : Nat} (hnum : num < 2 ^ 64) (hden : 0 < den)
    (he : 0 < e) (hcarry : 2 * ((den - num % den) * 10 ^ e) ≤ den) :
    e < 28 ∧ roundHalfEven (num * 10 ^ (e + 1)) den < 2 ^ 96 := by
  have hmod := Nat.mod_lt num hden
  have hmodle := Nat.mod_le num den
  have hten : 10 ^ 1 ≤ 10 ^ e := Nat.pow_le_pow_right (by decide) he
  have hmissing : (den - num % den) * 10 ≤ (den - num % den) * 10 ^ e := Nat.mul_le_mul_left _ hten
  have hone : 1 * 10 ^ e ≤ (den - num % den) * 10 ^ e := Nat.mul_le_mul_right _ (by omega)
  -- so little is missing that the divisor is hardly longer than the dividend
  have hshort : den < 2 ^ 65 := by omega
  constructor
  · refine Nat.lt_of_not_le fun hle => ?_
    have hpow : 10 ^ 28 ≤ 10 ^ e := Nat.pow_le_pow_right (by decide) hle
    omega
  · have hdiv : num * 10 ^ (e + 1) / den ≤ num * 5 := by
      refine Nat.div_le_of_le_mul ?_
      calc num * 10 ^ (e + 1)
          ≤ num * (5 * den) := Nat.mul_le_mul_left _ (by rw [Nat.pow_succ]; omega)
        _ = den * (num * 5) := by rw [← Nat.mul_assoc, Nat.mul_comm]
    have hround := roundHalfEven_le (num * 10 ^ (e + 1)) den
    omega

namespace Decimal

/-! ## Quotients that fit -/

/-- A quotient has the most places with which it fits. -/
theorem fit?_spec (negative : Bool) {num den limit : Nat} (hlimit : limit ≤ maxScale)
    (h : roundHalfEven num den < mantissaLimit) :
    ∃ d, fit? negative num den limit = some d ∧ d.negative = negative ∧ d.scale ≤ limit ∧
      d.mantissa = roundHalfEven (num * 10 ^ d.scale) den ∧
      (d.scale < limit → mantissaLimit ≤ roundHalfEven (num * 10 ^ (d.scale + 1)) den) := by
  induction limit with
  | zero =>
    obtain ⟨d, hd⟩ := exists_make? negative h hlimit
    obtain ⟨hnegative, hmantissa, hscale⟩ := make?_eq_some.mp hd
    refine ⟨d, hd, hnegative, by omega, ?_, by omega⟩
    rw [hmantissa, hscale, Nat.pow_zero, Nat.mul_one]
  | succ limit ih =>
    rw [fit?]
    cases hmade : make? negative (roundHalfEven (num * Nat.pow 10 (limit + 1)) den)
        (limit + 1) with
    | some d =>
      obtain ⟨hnegative, hmantissa, hscale⟩ := make?_eq_some.mp hmade
      refine ⟨d, rfl, hnegative, by omega, ?_, by omega⟩
      rw [hmantissa, hscale]
      rfl
    | none =>
      obtain ⟨d, hd, hnegative, hscale, hmantissa, hmost⟩ := ih (by omega)
      refine ⟨d, hd, hnegative, by omega, hmantissa, fun _ => ?_⟩
      rcases Nat.lt_or_eq_of_le hscale with hlt | heq
      · exact hmost hlt
      · rw [heq]
        refine Nat.le_of_not_lt fun hlt => ?_
        obtain ⟨d', hd'⟩ := exists_make? negative hlt hlimit
        cases hmade.symm.trans hd'

/-- The mantissa of the whole number `n` at the scale of `d`. -/
def scaled (d : Decimal) (n : Nat) : Nat := n * 10 ^ d.scale

/-- The quotient by `n` is rounded up to a whole number. -/
def Carries (d : Decimal) (n : Nat) : Prop :=
  2 * ((d.scaled n - d.mantissa % d.scaled n) * 10 ^ (d.divNat n).scale) ≤ d.scaled n

instance (d : Decimal) (n : Nat) : Decidable (d.Carries n) := Nat.decLe _ _

variable {d : Decimal} {n : Nat}

theorem le_scaled (d : Decimal) (n : Nat) : n ≤ d.scaled n :=
  Nat.le_mul_of_pos_right n (Nat.pow_pos (by decide))

theorem divNat_spec (d : Decimal) (hn : 2 ≤ n) :
    (d.divNat n).negative = d.negative ∧
      (d.divNat n).mantissa = roundHalfEven (d.mantissa * 10 ^ (d.divNat n).scale) (d.scaled n) ∧
      ((d.divNat n).scale < maxScale → mantissaLimit ≤
        roundHalfEven (d.mantissa * 10 ^ ((d.divNat n).scale + 1)) (d.scaled n)) := by
  have hlimit : mantissaLimit = 2 ^ 96 := rfl
  have hmantissa : d.mantissa < mantissaLimit := d.mantissa_lt
  have hfits : roundHalfEven d.mantissa (d.scaled n) < mantissaLimit := by
    have hle := roundHalfEven_le d.mantissa (d.scaled n)
    have hdiv : d.mantissa / d.scaled n ≤ d.mantissa / 2 :=
      Nat.div_le_div_left (Nat.le_trans hn (d.le_scaled n)) (by decide)
    omega
  obtain ⟨q, hq, hnegative, -, hmantissa, hmost⟩ :=
    fit?_spec d.negative (Nat.le_refl maxScale) hfits
  have hdivNat : d.divNat n = q := by
    rw [divNat, show n * Nat.pow 10 d.scale = d.scaled n from rfl, hq, Option.getD_some]
  rw [hdivNat]
  exact ⟨hnegative, hmantissa, hmost⟩

/-- A quotient of at most `bound` keeps `k` places if `bound` leaves room for them. -/
theorem le_scale_divNat (hn : 2 ≤ n) {bound k : Nat} (hd : d.mantissa ≤ bound * d.scaled n)
    (hbound : bound * 10 ^ k + 1 < mantissaLimit) (hk : k ≤ maxScale) :
    k ≤ (d.divNat n).scale := by
  obtain ⟨-, -, hmost⟩ := d.divNat_spec hn
  refine Nat.le_of_not_lt fun hlt => ?_
  have hover := hmost (Nat.lt_of_lt_of_le hlt hk)
  have hle := roundHalfEven_scaled_le hd hlt
  exact absurd (Nat.lt_of_le_of_lt (Nat.le_trans hover hle) hbound) (Nat.lt_irrefl _)

theorem scale_divNat_pos (d : Decimal) (hn : 20 ≤ n) : 0 < (d.divNat n).scale := by
  have hlimit : mantissaLimit = 2 ^ 96 := rfl
  have hmantissa : d.mantissa < mantissaLimit := d.mantissa_lt
  have hle : d.mantissa ≤ (d.mantissa / 20 + 1) * d.scaled n := by
    have hmul := Nat.mul_le_mul_left (d.mantissa / 20 + 1) (Nat.le_trans hn (d.le_scaled n))
    omega
  exact le_scale_divNat (k := 1) (by omega) hle (by omega) (by decide)

/-- The whole part of a quotient. -/
theorem mantissa_trunc_divNat (d : Decimal) (hn : 20 ≤ n) :
    (d.divNat n).trunc.mantissa
      = d.mantissa / d.scaled n + if d.Carries n then 1 else 0 := by
  obtain ⟨-, hmantissa, -⟩ := d.divNat_spec (n := n) (by omega)
  have hpos := d.scale_divNat_pos hn
  have heven : 10 ^ (d.divNat n).scale % 2 = 0 := by
    obtain ⟨e, he⟩ := Nat.exists_eq_succ_of_ne_zero (Nat.ne_of_gt hpos)
    rw [he, Nat.pow_succ]
    omega
  show (d.divNat n).mantissa / 10 ^ (d.divNat n).scale = _
  rw [hmantissa, roundHalfEven_scaled_div _ _ (Nat.pow_pos (by decide)) heven]
  · rfl
  · have := d.le_scaled n
    omega

theorem scaled_pos (d : Decimal) (hn : 0 < n) : 0 < d.scaled n :=
  Nat.lt_of_lt_of_le hn (d.le_scaled n)

/-- A carry needs a divisor with as many places as the quotient keeps. -/
theorem Carries.le_scaled (h : d.Carries n) (hn : 0 < n) :
    2 * 10 ^ (d.divNat n).scale ≤ d.scaled n := by
  have hmod := Nat.mod_lt d.mantissa (d.scaled_pos hn)
  unfold Carries at h
  generalize (d.divNat n).scale = e at h ⊢
  have hle : 1 * 10 ^ e ≤ (d.scaled n - d.mantissa % d.scaled n) * 10 ^ e :=
    Nat.mul_le_mul_right _ (by omega)
  omega

/-- A quotient of less than `bound` stays below it where `bound` leaves room for `k` places but a
dividend near it does not leave room for that many. -/
theorem trunc_divNat_lt (hn : 20 ≤ n) {bound k : Nat} (hk : k ≤ maxScale)
    (hd : d.mantissa < bound * d.scaled n) (hbound : bound * 10 ^ k + 1 < mantissaLimit)
    (hroom : ∀ s ≤ maxScale, 2 * 10 ^ k ≤ n * 10 ^ s →
      mantissaLimit ≤ (bound - 1) * (n * 10 ^ s)) :
    (d.divNat n).trunc.mantissa < bound := by
  have hdiv : d.mantissa / d.scaled n < bound :=
    Nat.div_lt_of_lt_mul (by rw [Nat.mul_comm]; exact hd)
  rw [d.mantissa_trunc_divNat hn]
  split
  · next hcarries =>
      have hscale := le_scale_divNat (by omega) (Nat.le_of_lt hd) hbound hk
      have hplaces := hcarries.le_scaled (by omega)
      generalize (d.divNat n).scale = e at hscale hplaces
      have hpow : 10 ^ k ≤ 10 ^ e := Nat.pow_le_pow_right (by decide) hscale
      have hlimit : mantissaLimit ≤ (bound - 1) * d.scaled n :=
        hroom d.scale d.scale_le (Nat.le_trans (Nat.mul_le_mul_left 2 hpow) hplaces)
      -- a dividend that is carried to `bound` would be too long
      refine Nat.lt_of_le_of_ne hdiv fun heq => ?_
      have hmul := Nat.div_mul_le_self d.mantissa (d.scaled n)
      rw [Nat.eq_sub_of_add_eq heq] at hmul
      exact absurd d.mantissa_lt (Nat.not_lt_of_le (Nat.le_trans hlimit hmul))
  · exact hdiv

/-- No carry is possible in numbers with few digits. -/
theorem not_carries_of_lt (hn : 20 ≤ n) (hd : d.mantissa < 2 ^ 64) : ¬d.Carries n := by
  intro h
  obtain ⟨-, -, hmost⟩ := d.divNat_spec (n := n) (by omega)
  obtain ⟨he, hlt⟩ :=
    roundHalfEven_lt_of_carry hd (d.scaled_pos (by omega)) (d.scale_divNat_pos hn) h
  exact absurd (hmost he) (Nat.not_le_of_lt hlt)

/-! ## Whole part and remainder -/

/-- The sign as a factor. -/
def sgn (d : Decimal) : Int := if d.negative then -1 else 1

theorem fixedPoint_eq (d : Decimal) :
    d.fixedPoint = d.sgn * (d.mantissa * 10 ^ (maxScale - d.scale) : Nat) := by
  unfold fixedPoint signed sgn
  cases d.negative <;> simp

@[simp] theorem negative_trunc (d : Decimal) : d.trunc.negative = d.negative := rfl

theorem natAbs_fixedPoint (d : Decimal) :
    d.fixedPoint.natAbs = d.mantissa * 10 ^ (maxScale - d.scale) := by
  rw [fixedPoint_eq, Int.natAbs_mul, Int.natAbs_natCast]
  unfold sgn
  cases d.negative <;> simp

theorem sgn_divNat (d : Decimal) (hn : 2 ≤ n) : (d.divNat n).sgn = d.sgn := by
  rw [sgn, sgn, (d.divNat_spec hn).1]

/-- What is carried into the whole part of the quotient by `n`. -/
def carry (d : Decimal) (n : Nat) : Nat := if d.Carries n then 1 else 0

theorem fixedPoint_trunc (d : Decimal) :
    d.trunc.fixedPoint = d.sgn * (d.trunc.mantissa * 10 ^ maxScale : Nat) :=
  fixedPoint_eq d.trunc

theorem fixedPoint_trunc_divNat (d : Decimal) (hn : 20 ≤ n) :
    (d.divNat n).trunc.fixedPoint
      = d.sgn * ((d.mantissa / d.scaled n + d.carry n) * 10 ^ maxScale : Nat) := by
  rw [fixedPoint_trunc, d.mantissa_trunc_divNat hn, d.sgn_divNat (by omega), carry]

theorem fixedPoint_modNat (d : Decimal) (n : Nat) :
    (d.modNat n).fixedPoint
      = d.sgn * (d.mantissa % d.scaled n * 10 ^ (maxScale - d.scale) : Nat) :=
  fixedPoint_eq (d.modNat n)

theorem div_add_mod_scaled (d : Decimal) (n : Nat) :
    n * (d.mantissa / d.scaled n * 10 ^ maxScale)
      + d.mantissa % d.scaled n * 10 ^ (maxScale - d.scale)
      = d.mantissa * 10 ^ (maxScale - d.scale) := by
  have hpow : 10 ^ maxScale = 10 ^ d.scale * 10 ^ (maxScale - d.scale) := by
    have hscale : d.scale ≤ maxScale := d.scale_le
    rw [← Nat.pow_add, Nat.add_sub_cancel' hscale]
  have hwhole : n * (d.mantissa / d.scaled n * 10 ^ maxScale)
      = d.scaled n * (d.mantissa / d.scaled n) * 10 ^ (maxScale - d.scale) := by
    rw [hpow]
    generalize d.mantissa / d.scaled n = q
    rw [scaled]
    ring
  rw [hwhole, ← Nat.add_mul, Nat.div_add_mod]

/-- The whole part of a quotient and the remainder exceed the dividend by what is carried. -/
theorem divNat_add_modNat (d : Decimal) (hn : 20 ≤ n) :
    n * (d.divNat n).trunc.fixedPoint + (d.modNat n).fixedPoint
      = d.fixedPoint + d.sgn * (n * d.carry n * 10 ^ maxScale : Nat) := by
  rw [d.fixedPoint_trunc_divNat hn, fixedPoint_modNat, fixedPoint_eq, ← d.div_add_mod_scaled n]
  generalize d.mantissa / d.scaled n = q
  generalize d.mantissa % d.scaled n * 10 ^ (maxScale - d.scale) = r
  generalize 10 ^ maxScale = one
  push_cast
  ring

theorem mantissa_modNat_lt (d : Decimal) (hn : 0 < n) : (d.modNat n).mantissa < d.scaled n :=
  Nat.mod_lt _ (d.scaled_pos hn)

/-- A remainder has the same remainders on division by the factors of the divisor. -/
theorem modNat_modNat (d : Decimal) {m : Nat} (h : m ∣ n) :
    (d.modNat n).modNat m = d.modNat m := by
  have hdvd : m * Nat.pow 10 d.scale ∣ n * Nat.pow 10 d.scale := Nat.mul_dvd_mul_right h _
  simp only [modNat, Nat.mod_mod_of_dvd _ hdvd]

end Decimal

end XQuery
