import XQuery.Text.Split

/-!
# Cuts of a text

What it means that a text can be cut: the character at which it is cut is the
first one that satisfies the condition, and removing a beginning leaves what
stands behind it.
-/

namespace XQuery.Text

variable {p : Char → Bool}

/-- A text is cut at a character that satisfies the condition, and no character in front of it
does. -/
theorem splitAtFirst?_eq_some {cs before after : List Char} :
    splitAtFirst? p cs = some (before, after) ↔
      ∃ c, p c = true ∧ (∀ b ∈ before, p b = false) ∧ cs = before ++ c :: after := by
  induction cs generalizing before with
  | nil => simp [splitAtFirst?]
  | cons d cs ih =>
    by_cases hd : p d = true
    · simp only [splitAtFirst?, hd, if_true, Option.some.injEq, Prod.mk.injEq]
      constructor
      · rintro ⟨rfl, rfl⟩
        exact ⟨d, hd, nofun, rfl⟩
      · rintro ⟨c, _, hbefore, heq⟩
        cases before with
        | nil =>
          cases heq
          exact ⟨rfl, rfl⟩
        | cons b before =>
          -- the first character would be in front of the cut
          cases heq
          have hfirst := hbefore d List.mem_cons_self
          rw [hd] at hfirst
          cases hfirst
    · simp only [splitAtFirst?, hd, Bool.false_eq_true, if_false, Option.map_eq_some_iff,
        Prod.mk.injEq, Prod.exists]
      constructor
      · rintro ⟨before, after, hsplit, rfl, rfl⟩
        obtain ⟨c, hc, hbefore, rfl⟩ := ih.mp hsplit
        refine ⟨c, hc, ?_, rfl⟩
        exact List.forall_mem_cons.mpr ⟨by simpa using hd, hbefore⟩
      · rintro ⟨c, hc, hbefore, heq⟩
        cases before with
        | nil =>
          cases heq
          exact absurd hc hd
        | cons b before =>
          cases heq
          have hrest := (List.forall_mem_cons.mp hbefore).2
          exact ⟨before, after, ih.mpr ⟨c, hc, hrest, rfl⟩, rfl, rfl⟩

theorem splitAtFirst?_eq_none {cs : List Char} :
    splitAtFirst? p cs = none ↔ ∀ c ∈ cs, p c = false := by
  induction cs with
  | nil => simp [splitAtFirst?]
  | cons d cs ih =>
    by_cases hd : p d = true
    · simp [splitAtFirst?, hd]
    · simp [splitAtFirst?, hd, ih]

/-- A text is cut at the first place where a given character stands. -/
theorem splitAtFirst?_beq_eq_some {c : Char} {cs before after : List Char} :
    splitAtFirst? (· == c) cs = some (before, after) ↔ c ∉ before ∧ cs = before ++ c :: after := by
  rw [splitAtFirst?_eq_some]
  constructor
  · rintro ⟨d, hd, hbefore, rfl⟩
    cases beq_iff_eq.mp hd
    refine ⟨fun hmem => ?_, rfl⟩
    have hne := hbefore c hmem
    simp at hne
  · rintro ⟨hbefore, rfl⟩
    refine ⟨c, beq_self_eq_true c, fun b hb => ?_, rfl⟩
    refine beq_eq_false_iff_ne.mpr ?_
    rintro rfl
    exact hbefore hb

theorem splitAtFirst?_beq_eq_none {c : Char} {cs : List Char} :
    splitAtFirst? (· == c) cs = none ↔ c ∉ cs := by
  rw [splitAtFirst?_eq_none]
  constructor
  · intro hall hmem
    have hne := hall c hmem
    simp at hne
  · intro hmem d hd
    refine beq_eq_false_iff_ne.mpr ?_
    rintro rfl
    exact hmem hd

/-- Every text starts with all the characters it has in front that satisfy the condition. -/
theorem exists_run (p : Char → Bool) (cs : List Char) :
    ∃ run rest, cs = run ++ rest ∧ (∀ c ∈ run, p c = true) ∧ ∀ c ∈ rest.head?, p c = false := by
  induction cs with
  | nil => exact ⟨[], [], rfl, nofun, nofun⟩
  | cons c cs ih =>
    cases hc : p c with
    | true =>
      obtain ⟨run, rest, rfl, hrun, hrest⟩ := ih
      exact ⟨c :: run, rest, rfl, List.forall_mem_cons.mpr ⟨hc, hrun⟩, hrest⟩
    | false => exact ⟨[], c :: cs, rfl, nofun, by simpa using hc⟩

theorem strip?_eq_some {lead text rest : List Char} :
    strip? lead text = some rest ↔ text = lead ++ rest := by
  induction lead generalizing text with
  | nil => simp [strip?]
  | cons l lead ih =>
    cases text with
    | nil => simp [strip?]
    | cons c text =>
      by_cases hlc : l = c
      · simp [strip?, hlc, ih]
      · simp [strip?, hlc, Ne.symm hlc]

theorem stripEnd?_eq_some {tail text front : List Char} :
    stripEnd? tail text = some front ↔ text = front ++ tail := by
  rw [stripEnd?, Option.map_eq_some_iff]
  simp only [strip?_eq_some]
  constructor
  · rintro ⟨back, htext, rfl⟩
    rw [← List.reverse_reverse text, htext, List.reverse_append, List.reverse_reverse]
  · rintro rfl
    exact ⟨front.reverse, List.reverse_append, List.reverse_reverse front⟩

end XQuery.Text
