import Mathlib.Data.Option.Basic
import XQuery.Text.Regex

/-!
# What regular expressions match

An expression matches words at a place of a text (`Regex.Matches`), by its
construction and in any order. Searching finds a match exactly if there is one
(`Regex.captures?_isSome`, `Regex.exists_matches`); the order in which matches
are tried decides only which of them it is.
-/

namespace XQuery

namespace Regex

/-- The word matches in front of the rest of a text, at the start of the text if `atStart` holds,
and the groups match these parts of it. -/
def Matches : Regex → (atStart : Bool) → (word rest : List Char) → Groups → Prop
  | empty, _, word, _, groups => word = [] ∧ groups = []
  | start, atStart, word, _, groups => atStart = true ∧ word = [] ∧ groups = []
  | stop, _, word, rest, groups => rest = [] ∧ word = [] ∧ groups = []
  | one p, _, word, _, groups => (∃ c, p c = true ∧ word = [c]) ∧ groups = []
  | many p, _, word, _, groups => (∀ c ∈ word, p c = true) ∧ groups = []
  | sequence r s, atStart, word, rest, groups =>
      ∃ front back inFront inBack, word = front ++ back ∧ groups = inFront ++ inBack ∧
        r.Matches atStart front (back ++ rest) inFront ∧
        s.Matches (atStart && front.isEmpty) back rest inBack
  | either r s, atStart, word, rest, groups =>
      r.Matches atStart word rest groups ∨ s.Matches atStart word rest groups
  | group i r, atStart, word, rest, groups =>
      ∃ inside, groups = (i, word) :: inside ∧ r.Matches atStart word rest inside

variable {α : Type} {p : Char → Bool} {r : Regex} {atStart : Bool} {cs word rest : List Char}
  {groups : Groups} {a : α}

/-! ## Words that match -/

theorem matches_char {c : Char} :
    (char c).Matches atStart word rest groups ↔ word = [c] ∧ groups = [] := by
  simp [char, Matches]

theorem matches_all_cons {rs : List Regex} :
    (all (r :: rs)).Matches atStart word rest groups ↔
      ∃ front back inFront inBack, word = front ++ back ∧ groups = inFront ++ inBack ∧
        r.Matches atStart front (back ++ rest) inFront ∧
        (all rs).Matches (atStart && front.isEmpty) back rest inBack := Iff.rfl

theorem matches_all_singleton :
    (all [r]).Matches atStart word rest groups ↔ r.Matches atStart word rest groups := by
  constructor
  · rintro ⟨_, _, _, _, rfl, rfl, hmatch, rfl, rfl⟩
    simpa only [List.append_nil, List.nil_append] using hmatch
  · intro hmatch
    exact ⟨word, [], groups, [], by simp, by simp, hmatch, rfl, rfl⟩

theorem matches_all_pair {s : Regex} :
    (all [r, s]).Matches atStart word rest groups ↔
      ∃ front back inFront inBack, word = front ++ back ∧ groups = inFront ++ inBack ∧
        r.Matches atStart front (back ++ rest) inFront ∧
        s.Matches (atStart && front.isEmpty) back rest inBack := by
  rw [matches_all_cons]
  simp only [matches_all_singleton]

theorem matches_all_start {rs : List Regex} :
    (all (start :: rs)).Matches atStart word rest groups ↔
      atStart = true ∧ (all rs).Matches true word rest groups := by
  rw [matches_all_cons]
  constructor
  · rintro ⟨_, _, _, _, rfl, rfl, ⟨rfl, rfl, rfl⟩, hback⟩
    exact ⟨rfl, hback⟩
  · rintro ⟨rfl, hback⟩
    exact ⟨[], word, [], groups, rfl, rfl, ⟨rfl, rfl, rfl⟩, hback⟩

/-- A given character stands in front of what the other expressions match. -/
theorem matches_all_char {c : Char} {rs : List Regex} :
    (all (char c :: rs)).Matches atStart word rest groups ↔
      ∃ back, word = c :: back ∧ (all rs).Matches false back rest groups := by
  rw [matches_all_cons]
  constructor
  · rintro ⟨_, back, _, _, rfl, rfl, hchar, hback⟩
    obtain ⟨rfl, rfl⟩ := matches_char.mp hchar
    exact ⟨back, rfl, by simpa using hback⟩
  · rintro ⟨back, rfl, hback⟩
    exact ⟨[c], back, [], groups, rfl, rfl, matches_char.mpr ⟨rfl, rfl⟩, by simpa using hback⟩

/-! ## Matching at the front -/

theorem matchMany_sound {next : List Char → List Char → Option α}
    (h : matchMany p cs next = some a) :
    ∃ word rest, cs = word ++ rest ∧ (∀ c ∈ word, p c = true) ∧ next word rest = some a := by
  induction cs generalizing next with
  | nil => exact ⟨[], [], rfl, by simp, h⟩
  | cons c cs ih =>
    rw [matchMany] at h
    split at h
    · next hc =>
        rcases (Option.orElse_eq_some ..).mp h with h | ⟨-, h⟩
        · obtain ⟨word, rest, rfl, hword, hnext⟩ := ih h
          exact ⟨c :: word, rest, rfl, List.forall_mem_cons.mpr ⟨hc, hword⟩, hnext⟩
        · exact ⟨[], c :: cs, rfl, by simp, h⟩
    · exact ⟨[], c :: cs, rfl, by simp, h⟩

theorem isSome_orElse {x y : Option α} : (x <|> y).isSome ↔ x.isSome ∨ y.isSome := by
  simp

theorem matchMany_isSome {next : List Char → List Char → Option α}
    (hword : ∀ c ∈ word, p c = true) (h : (next word rest).isSome) :
    (matchMany p (word ++ rest) next).isSome := by
  induction word generalizing next with
  | nil =>
    cases rest with
    | nil => exact h
    | cons c rest =>
      rw [List.nil_append, matchMany]
      split
      · exact isSome_orElse.mpr (.inr h)
      · exact h
  | cons c word ih =>
    obtain ⟨hc, hword⟩ := List.forall_mem_cons.mp hword
    rw [List.cons_append, matchMany, if_pos hc]
    exact isSome_orElse.mpr (.inl (ih hword h))

/-- What is found matches. -/
theorem matchFront_sound {next : List Char → List Char → Groups → Option α}
    (h : r.matchFront atStart cs next = some a) :
    ∃ word rest groups, cs = word ++ rest ∧ r.Matches atStart word rest groups ∧
      next word rest groups = some a := by
  induction r generalizing atStart cs next with
  | empty => exact ⟨[], cs, [], rfl, ⟨rfl, rfl⟩, h⟩
  | start =>
    obtain ⟨hstart, h⟩ := Option.ite_none_right_eq_some.mp h
    exact ⟨[], cs, [], rfl, ⟨hstart, rfl, rfl⟩, h⟩
  | stop =>
    obtain ⟨hstop, h⟩ := Option.ite_none_right_eq_some.mp h
    exact ⟨[], cs, [], rfl, ⟨List.isEmpty_iff.mp hstop, rfl, rfl⟩, h⟩
  | one p =>
    cases cs with
    | nil => cases h
    | cons c cs =>
      obtain ⟨hc, h⟩ := Option.ite_none_right_eq_some.mp h
      exact ⟨[c], cs, [], rfl, ⟨⟨c, hc, rfl⟩, rfl⟩, h⟩
  | many p =>
    obtain ⟨word, rest, rfl, hword, h⟩ := matchMany_sound h
    exact ⟨word, rest, [], rfl, ⟨hword, rfl⟩, h⟩
  | sequence r s ihr ihs =>
    obtain ⟨front, _, inFront, rfl, hfront, h⟩ := ihr h
    obtain ⟨back, rest, inBack, rfl, hback, h⟩ := ihs h
    exact ⟨front ++ back, rest, inFront ++ inBack, (List.append_assoc ..).symm,
      ⟨front, back, inFront, inBack, rfl, rfl, hfront, hback⟩, h⟩
  | either r s ihr ihs =>
    rcases (Option.orElse_eq_some ..).mp h with h | ⟨-, h⟩
    · obtain ⟨word, rest, groups, hcs, hmatch, h⟩ := ihr h
      exact ⟨word, rest, groups, hcs, .inl hmatch, h⟩
    · obtain ⟨word, rest, groups, hcs, hmatch, h⟩ := ihs h
      exact ⟨word, rest, groups, hcs, .inr hmatch, h⟩
  | group i r ih =>
    obtain ⟨word, rest, groups, hcs, hmatch, h⟩ := ih h
    exact ⟨word, rest, (i, word) :: groups, hcs, ⟨groups, rfl, hmatch⟩, h⟩

/-- If there is a match with which `next` has a result, a result is found. -/
theorem matchFront_isSome {next : List Char → List Char → Groups → Option α}
    (hmatch : r.Matches atStart word rest groups) (h : (next word rest groups).isSome) :
    (r.matchFront atStart (word ++ rest) next).isSome := by
  induction r generalizing atStart word rest groups next with
  | empty =>
    obtain ⟨rfl, rfl⟩ := hmatch
    exact h
  | start =>
    obtain ⟨hstart, rfl, rfl⟩ := hmatch
    rw [matchFront, if_pos hstart]
    exact h
  | stop =>
    obtain ⟨rfl, rfl, rfl⟩ := hmatch
    exact h
  | one p =>
    obtain ⟨⟨c, hc, rfl⟩, rfl⟩ := hmatch
    rw [List.singleton_append, matchFront, if_pos hc]
    exact h
  | many p =>
    obtain ⟨hword, rfl⟩ := hmatch
    exact matchMany_isSome hword h
  | sequence r s ihr ihs =>
    obtain ⟨front, back, inFront, inBack, rfl, rfl, hfront, hback⟩ := hmatch
    rw [List.append_assoc]
    exact ihr hfront (ihs hback h)
  | either r s ihr ihs =>
    rcases hmatch with hmatch | hmatch
    · exact isSome_orElse.mpr (.inl (ihr hmatch h))
    · exact isSome_orElse.mpr (.inr (ihs hmatch h))
  | group i r ih =>
    obtain ⟨inside, rfl, hmatch⟩ := hmatch
    exact ih hmatch h

/-! ## Searching -/

theorem searchFrom_sound (h : r.searchFrom atStart cs = some groups) :
    ∃ before word rest, cs = before ++ (word ++ rest) ∧
      r.Matches (atStart && before.isEmpty) word rest groups := by
  have hfront {atStart : Bool} {cs : List Char}
      (h : (r.matchFront atStart cs fun _ _ groups => some groups) = some groups) :
      ∃ before word rest, cs = before ++ (word ++ rest) ∧
        r.Matches (atStart && before.isEmpty) word rest groups := by
    obtain ⟨word, rest, _, rfl, hmatch, ⟨⟩⟩ := matchFront_sound h
    exact ⟨[], word, rest, rfl, by rwa [List.isEmpty_nil, Bool.and_true]⟩
  induction cs generalizing atStart with
  | nil => exact hfront h
  | cons c cs ih =>
    rcases (Option.orElse_eq_some ..).mp h with h | ⟨-, h⟩
    · exact hfront h
    · obtain ⟨before, word, rest, rfl, hmatch⟩ := ih h
      exact ⟨c :: before, word, rest, rfl, by simpa using hmatch⟩

theorem searchFrom_isSome {before : List Char}
    (h : r.Matches (atStart && before.isEmpty) word rest groups) :
    (r.searchFrom atStart (before ++ (word ++ rest))).isSome := by
  induction before generalizing atStart with
  | nil =>
    rw [List.isEmpty_nil, Bool.and_true] at h
    have hfound : (r.matchFront atStart (word ++ rest) fun _ _ groups => some groups).isSome :=
      matchFront_isSome h rfl
    rw [List.nil_append]
    generalize word ++ rest = cs at hfound
    cases cs with
    | nil => exact hfound
    | cons c cs => exact isSome_orElse.mpr (.inl hfound)
  | cons c before ih => exact isSome_orElse.mpr (.inr (ih (by simpa using h)))

/-- What is captured is captured by a match somewhere in the text. -/
theorem exists_matches (h : r.captures? cs = some groups) :
    ∃ before word rest, cs = before ++ (word ++ rest) ∧
      r.Matches before.isEmpty word rest groups := by
  obtain ⟨before, word, rest, hcs, hmatch⟩ := searchFrom_sound h
  exact ⟨before, word, rest, hcs, by rwa [Bool.true_and] at hmatch⟩

/-- A match anywhere in the text is enough for one to be found. -/
theorem captures?_isSome {before : List Char} (h : r.Matches before.isEmpty word rest groups) :
    (r.captures? (before ++ (word ++ rest))).isSome :=
  searchFrom_isSome (by rwa [Bool.true_and])

theorem isMatch_iff :
    r.isMatch cs = true ↔ ∃ before word rest groups, cs = before ++ (word ++ rest) ∧
      r.Matches before.isEmpty word rest groups := by
  constructor
  · intro h
    obtain ⟨groups, hgroups⟩ := Option.isSome_iff_exists.mp h
    obtain ⟨before, word, rest, hcs, hmatch⟩ := exists_matches hgroups
    exact ⟨before, word, rest, groups, hcs, hmatch⟩
  · rintro ⟨before, word, rest, groups, rfl, hmatch⟩
    exact captures?_isSome hmatch

end Regex

end XQuery
