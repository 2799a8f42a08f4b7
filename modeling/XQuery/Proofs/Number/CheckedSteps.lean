import XQuery.Number.Signed64
import XQuery.Proofs.Number.Exactness

/-!
# Checked steps

Each step of a sum of products is checked on its own. With numbers that are not
negative and factors that are not zero no total is below what it is made up of,
so that a step fails only where the total does not fit: a chain of steps has the
result that one check of the exact total has. This holds for integers of 64 bits
as for decimal numbers without places.
-/

namespace XQuery

namespace Signed64

theorem ofInt?_natCast (n : Nat) :
    ofInt? n = if n ≤ 2 ^ 63 - 1 then some (n : Int) else none := by
  have hlimit : limit = 2 ^ 63 := rfl
  have hfits : (-limit ≤ (n : Int) ∧ (n : Int) < limit) ↔ n ≤ 2 ^ 63 - 1 := by omega
  rw [ofInt?]
  simp only [hfits]

theorem bind_mul? (a : Nat) {k : Nat} (hk : 0 < k) :
    ((ofInt? a).bind fun x => mul? x k) = ofInt? (a * k : Nat) := by
  have hle : a ≤ a * k := Nat.le_mul_of_pos_right a hk
  rw [ofInt?_natCast a]
  split
  · rw [Option.bind_some, mul?, Int.natCast_mul]
  · rw [ofInt?_natCast (a * k), if_neg (by omega)]
    rfl

theorem bind_add? (a b : Nat) :
    ((ofInt? a).bind fun x => (ofInt? b).bind fun y => add? x y) = ofInt? (a + b : Nat) := by
  rw [ofInt?_natCast a]
  split
  · rw [Option.bind_some, ofInt?_natCast b]
    split
    · rw [Option.bind_some, add?, Int.natCast_add]
    · rw [ofInt?_natCast (a + b), if_neg (by omega)]
      rfl
  · rw [ofInt?_natCast (a + b), if_neg (by omega)]
    rfl

/-- What is not negative and fits has an opposite. -/
theorem neg?_natCast {n : Nat} (h : n ≤ 2 ^ 63 - 1) : neg? n = some (-n : Int) := by
  have hlimit : limit = 2 ^ 63 := rfl
  exact if_pos (by omega)

end Signed64

namespace Decimal

variable {a b : Nat} {x y : Decimal}

theorem ofNat?_eq_some : ofNat? a = some x ↔ x.negative = false ∧ x.mantissa = a ∧ x.scale = 0 :=
  make?_eq_some

theorem ofNat?_eq_none : ofNat? a = none ↔ mantissaLimit ≤ a := by
  refine ⟨fun h => Nat.le_of_not_lt fun hlt => ?_, make?_eq_none⟩
  obtain ⟨d, hd⟩ := exists_make? false hlt (Nat.zero_le maxScale)
  cases h.symm.trans hd

theorem fit?_whole (n : Nat) : fit? false n 1 0 = ofNat? n := by
  have hround : roundHalfEven n 1 = n := by
    simpa using roundHalfEven_mul n Nat.one_pos
  rw [fit?, hround, ofNat?]

theorem isZero_iff_mantissa : x.isZero = true ↔ x.mantissa = 0 := by
  rw [isZero, beq_iff_eq]

theorem mulNat?_whole (h : ofNat? a = some x) {k : Nat} (hk : 0 < k) :
    x.mulNat? k = ofNat? (a * k) := by
  obtain ⟨hnegative, hmantissa, hscale⟩ := ofNat?_eq_some.mp h
  have hfactor : (k == 0) = false := beq_eq_false_iff_ne.mpr (by omega)
  rw [mulNat?, hfactor, Bool.or_false]
  split
  · next hzero =>
      rw [isZero_iff_mantissa, hmantissa] at hzero
      rw [hzero, Nat.zero_mul]
      rfl
  · rw [hnegative, hmantissa, hscale]
    exact fit?_whole (a * k)

theorem add?_whole (hx : ofNat? a = some x) (hy : ofNat? b = some y) :
    x.add? y = ofNat? (a + b) := by
  obtain ⟨hxnegative, hxmantissa, hxscale⟩ := ofNat?_eq_some.mp hx
  obtain ⟨hynegative, hymantissa, hyscale⟩ := ofNat?_eq_some.mp hy
  cases hxzero : x.isZero with
  | true =>
    have ha : a = 0 := by rw [← hxmantissa, isZero_iff_mantissa.mp hxzero]
    rw [add?, if_pos hxzero, ha, Nat.zero_add, hy]
  | false =>
    cases hyzero : y.isZero with
    | true =>
      have hb : b = 0 := by rw [← hymantissa, isZero_iff_mantissa.mp hyzero]
      rw [add?, hxzero, hyzero, hb, Nat.add_zero, hx]
      rfl
    | false =>
      have hsum : x.sum y = (a + b : Nat) := by
        rw [sum, signed_of_nonneg hxnegative, signed_of_nonneg hynegative, hxmantissa, hymantissa,
          hxscale, hyscale]
        simp
      rw [add?_eq hxzero hyzero, hsum, hxscale, hyscale, Int.natAbs_natCast]
      exact fit?_whole (a + b)

theorem bind_mulNat? (a : Nat) {k : Nat} (hk : 0 < k) :
    ((ofNat? a).bind fun x => x.mulNat? k) = ofNat? (a * k) := by
  cases ha : ofNat? a with
  | some x => exact mulNat?_whole ha hk
  | none =>
    have hle : a ≤ a * k := Nat.le_mul_of_pos_right a hk
    exact (ofNat?_eq_none.mpr (Nat.le_trans (ofNat?_eq_none.mp ha) hle)).symm

theorem bind_add? (a b : Nat) :
    ((ofNat? a).bind fun x => (ofNat? b).bind fun y => x.add? y) = ofNat? (a + b) := by
  cases ha : ofNat? a with
  | none =>
    exact (ofNat?_eq_none.mpr (Nat.le_trans (ofNat?_eq_none.mp ha) (Nat.le_add_right a b))).symm
  | some x =>
    cases hb : ofNat? b with
    | none =>
      exact (ofNat?_eq_none.mpr (Nat.le_trans (ofNat?_eq_none.mp hb) (Nat.le_add_left b a))).symm
    | some y => exact add?_whole ha hb

end Decimal

end XQuery
