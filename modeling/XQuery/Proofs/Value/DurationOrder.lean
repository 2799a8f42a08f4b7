import XQuery.Proofs.Number.Values
import XQuery.Value.Duration

/-!
# The order of durations

Durations of one family, without months or without seconds, are ordered by
their months and then by their seconds, of which one counts. Zero is in both
families, so that it can stand between two durations that are not comparable:
the order is transitive within a family, and only through zero it is not
(`Duration.cmp?_partial_order`).
-/

namespace XQuery

namespace Duration

variable {a b c : Duration}

/-- Both durations have no months, or both have no seconds. -/
def SameFamily (a b : Duration) : Prop :=
  a.months = 0 ∧ b.months = 0 ∨ a.seconds.isZero = true ∧ b.seconds.isZero = true

theorem SameFamily.symm (h : SameFamily a b) : SameFamily b a :=
  h.imp And.symm And.symm

theorem equal_iff :
    a.equal b = true ↔ a.months = b.months ∧ a.seconds.fixedPoint = b.seconds.fixedPoint := by
  simp [equal, Decimal.equal_iff]

/-- The order by months and then by seconds. -/
def lexicographic (a b : Duration) : Ordering :=
  (compare a.months b.months).then (compare a.seconds.fixedPoint b.seconds.fixedPoint)

theorem lexicographic_eq : a.lexicographic b = .eq ↔ a.equal b = true := by
  simp [lexicographic, equal_iff, Ordering.then_eq_eq]

theorem lexicographic_lt :
    a.lexicographic b = .lt ↔ a.months < b.months ∨
      a.months = b.months ∧ a.seconds.fixedPoint < b.seconds.fixedPoint := by
  simp [lexicographic, Ordering.then_eq_lt, Int.compare_eq_lt]

theorem lexicographic_swap (a b : Duration) : b.lexicographic a = (a.lexicographic b).swap := by
  rw [lexicographic, lexicographic, Ordering.swap_then, Int.compare_swap, Int.compare_swap]

/-- Within a family one of the two comparisons is between zeros. -/
theorem cmp?_of_sameFamily (h : SameFamily a b) : a.cmp? b = some (a.lexicographic b) := by
  unfold cmp?
  split
  · next hequal => rw [lexicographic_eq.mpr hequal]
  · next hequal =>
      split
      · next hmonths =>
          have hsame : compare a.months b.months = .eq := by simp [hmonths]
          rw [lexicographic, hsame, Decimal.cmp_eq]
          rfl
      · next hmonths =>
          have hseconds := h.resolve_left hmonths
          have hsame : compare a.seconds.fixedPoint b.seconds.fixedPoint = .eq := by
            simp [Decimal.fixedPoint_of_isZero, hseconds]
          rw [if_pos hseconds, lexicographic, hsame, Ordering.then_eq]

/-- Durations of different families can only be equal. -/
theorem cmp?_of_not_sameFamily (h : ¬SameFamily a b) :
    a.cmp? b = if a.equal b then some .eq else none := by
  obtain ⟨hmonths, hseconds⟩ := not_or.mp h
  rw [cmp?, if_neg hmonths, if_neg hseconds]

theorem cmp?_eq_iff : a.cmp? b = some .eq ↔ a.equal b = true := by
  by_cases hfamily : SameFamily a b
  · rw [cmp?_of_sameFamily hfamily, Option.some_inj, lexicographic_eq]
  · rw [cmp?_of_not_sameFamily hfamily]
    simp

theorem cmp?_lt_iff : a.cmp? b = some .lt ↔ SameFamily a b ∧ a.lexicographic b = .lt := by
  by_cases hfamily : SameFamily a b
  · simp [cmp?_of_sameFamily hfamily, hfamily]
  · rw [cmp?_of_not_sameFamily hfamily]
    simp [hfamily]

theorem equal_comm (a b : Duration) : a.equal b = b.equal a := by
  rw [Bool.eq_iff_iff, equal_iff, equal_iff]
  exact and_congr eq_comm eq_comm

theorem cmp?_swap (a b : Duration) : b.cmp? a = (a.cmp? b).map .swap := by
  by_cases hfamily : SameFamily a b
  · rw [cmp?_of_sameFamily hfamily, cmp?_of_sameFamily hfamily.symm, lexicographic_swap]
    rfl
  · have hfamily' : ¬SameFamily b a := fun h => hfamily h.symm
    rw [cmp?_of_not_sameFamily hfamily, cmp?_of_not_sameFamily hfamily', equal_comm]
    split
    · rfl
    · rfl

/-- Only zero is in one family with two durations that are in none together. -/
theorem SameFamily.isZero (hab : SameFamily a b) (hbc : SameFamily b c) (hac : ¬SameFamily a c) :
    b.months = 0 ∧ b.seconds.isZero = true := by
  rcases hab with ⟨ha, hb⟩ | ⟨ha, hb⟩
  · rcases hbc with ⟨_, hc⟩ | ⟨hb', _⟩
    · exact absurd (.inl ⟨ha, hc⟩) hac
    · exact ⟨hb, hb'⟩
  · rcases hbc with ⟨hb', _⟩ | ⟨_, hc⟩
    · exact ⟨hb', hb⟩
    · exact absurd (.inr ⟨ha, hc⟩) hac

theorem lexicographic_trans (hab : a.lexicographic b = .lt) (hbc : b.lexicographic c = .lt) :
    a.lexicographic c = .lt := by
  rw [lexicographic_lt] at *
  omega

/-- Durations compare as equal exactly if they are equal, and in the reverse order with the reverse
result. One that is below a second, which is below a third, is below the third if the two are of one
family. If they are not, the second is zero and they are not comparable. -/
theorem cmp?_partial_order (a b c : Duration) :
    (a.cmp? b = some .eq ↔ a.equal b = true) ∧
    b.cmp? a = (a.cmp? b).map .swap ∧
    (a.cmp? b = some .lt → b.cmp? c = some .lt →
      (SameFamily a c → a.cmp? c = some .lt) ∧
      (¬SameFamily a c → b.months = 0 ∧ b.seconds.isZero = true ∧ a.cmp? c = none)) := by
  refine ⟨cmp?_eq_iff, cmp?_swap a b, fun hab hbc => ?_⟩
  obtain ⟨hfamilyab, hltab⟩ := cmp?_lt_iff.mp hab
  obtain ⟨hfamilybc, hltbc⟩ := cmp?_lt_iff.mp hbc
  have hlt := lexicographic_trans hltab hltbc
  constructor
  · intro hfamily
    exact cmp?_lt_iff.mpr ⟨hfamily, hlt⟩
  · intro hfamily
    obtain ⟨hmonths, hseconds⟩ := hfamilyab.isZero hfamilybc hfamily
    have hne : ¬a.equal c = true := by
      rw [← lexicographic_eq, hlt]
      exact nofun
    refine ⟨hmonths, hseconds, ?_⟩
    rw [cmp?_of_not_sameFamily hfamily, if_neg hne]

/-- Zero stands between two durations of months, although all three are of different kinds. -/
theorem cmp?_partial_order_months :
    ∃ a b c, parse "-P1Y" .yearMonth = .ok a ∧ parse "-PT0S" .dayTime = .ok b ∧
      parse "P1M" .duration = .ok c ∧ a.cmp? b = some .lt ∧ b.cmp? c = some .lt ∧
      a.cmp? c = some .lt := by
  let a : Duration := ⟨-12, ⟨true, 0, 0, by decide, by decide⟩, .yearMonth⟩
  let b : Duration := ⟨0, ⟨true, 0, 0, by decide, by decide⟩, .dayTime⟩
  let c : Duration := ⟨1, ⟨false, 0, 0, by decide, by decide⟩, .duration⟩
  have hab : a.cmp? b = some .lt := by decide +kernel
  have hbc : b.cmp? c = some .lt := by decide +kernel
  refine ⟨a, b, c, ?_, ?_, ?_, hab, hbc, ?_⟩
  · rfl
  · rfl
  · rfl
  · exact ((cmp?_partial_order a b c).2.2 hab hbc).1 (.inr ⟨rfl, rfl⟩)

/-- A negative month is below zero and zero is below a second, but the month and the second are not
comparable. -/
theorem cmp?_not_transitive :
    ∃ a b c, parse "-P1M" .duration = .ok a ∧ parse "PT0S" .duration = .ok b ∧
      parse "PT1S" .duration = .ok c ∧ a.cmp? b = some .lt ∧ b.cmp? c = some .lt ∧
      a.cmp? c = none := by
  refine ⟨⟨-1, ⟨true, 0, 0, by decide, by decide⟩, .duration⟩,
    ⟨0, ⟨false, 0, 0, by decide, by decide⟩, .duration⟩,
    ⟨0, ⟨false, 1, 0, by decide, by decide⟩, .duration⟩, rfl, rfl, rfl, ?_, ?_, ?_⟩
  all_goals decide +kernel

end Duration

end XQuery
