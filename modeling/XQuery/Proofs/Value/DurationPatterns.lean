import XQuery.Proofs.Text.Regex
import XQuery.Proofs.Value.NumericLiterals
import XQuery.Value.Duration

/-!
# The form of durations

The grammar of durations as a relation between components and texts
(`Duration.Written`), and that reading accepts it exactly
(`Duration.ofChars?_eq_some`). Reading searches for two patterns: the text must
match the form, in which all components may be left out, and must not match
what is incomplete. The form determines the components, although `M` closes
months and minutes and a number is given back where another letter closes it:
no letter closes two components of one half. A text of the form is incomplete
exactly if it has no component at all, or a `T` without one behind it.
-/

namespace XQuery

namespace Duration

variable {cs rest word : List Char} {P : List Char → Prop} {unit : Char}

/-! ## The grammar of durations -/

/-- A component that may be absent: a number with a letter behind it. -/
inductive Part (P : List Char → Prop) (unit : Char) : Option (List Char) → List Char → Prop
  | absent : Part P unit none []
  | present {number : List Char} : P number → Part P unit (some number) (number ++ [unit])

/-- Digits, of which there is at least one. -/
def Whole (cs : List Char) : Prop := Digits.isDigits cs = true

/-- Digits that may have a point among them, and of which there is at least one. -/
def Pointed (cs : List Char) : Prop := ∃ k, Mantissa k cs

/-- The time, which may be absent as a whole. -/
inductive TimePart : (hours minutes seconds : Option (List Char)) → List Char → Prop
  | absent : TimePart none none none []
  | present {hours minutes seconds : Option (List Char)} {h n x : List Char} :
      Part Whole 'H' hours h → Part Whole 'M' minutes n → Part Pointed 'S' seconds x →
      TimePart hours minutes seconds ('T' :: (h ++ (n ++ x)))

/-- All components. -/
inductive Body (c : Components) : List Char → Prop
  | mk {y m d t : List Char} : Part Whole 'Y' c.years y → Part Whole 'M' c.months m →
      Part Whole 'D' c.days d → TimePart c.hours c.minutes c.seconds t →
      Body c (y ++ (m ++ (d ++ t)))

/-- The sign in front of `P`. -/
def signText (negative : Bool) : List Char := if negative then ['-'] else []

/-- The text has the form of a duration with these components. -/
def Form (c : Components) (cs : List Char) : Prop :=
  ∃ body, Body c body ∧ cs = signText c.negative ++ 'P' :: body

/-- There is a component, and one of the time if there is a `T`. -/
structure Complete (c : Components) (cs : List Char) : Prop where
  component : c.years ≠ none ∨ c.months ≠ none ∨ c.days ≠ none ∨ c.hours ≠ none ∨
    c.minutes ≠ none ∨ c.seconds ≠ none
  time : 'T' ∈ cs → c.hours ≠ none ∨ c.minutes ≠ none ∨ c.seconds ≠ none

/-- The text of a duration with these components. -/
def Written (c : Components) (cs : List Char) : Prop := Form c cs ∧ Complete c cs

/-- Whether a duration of the kind may have these components. -/
def OfKind (c : Components) : DurationKind → Prop
  | .duration => True
  | .yearMonth => c.days = none ∧ c.hours = none ∧ c.minutes = none ∧ c.seconds = none
  | .dayTime => c.years = none ∧ c.months = none

/-! ## The letters of the parts -/

theorem whole_iff : Whole cs ↔ cs ≠ [] ∧ AllDigits cs := Digits.isDigits_iff

theorem isDigit_or_point_of_pointed (h : Pointed cs) : ∀ c ∈ cs, c.isDigit = true ∨ c = '.' := by
  intro c hc
  obtain ⟨k, hm⟩ := h
  cases hm with
  | integer _ hdigits => exact .inl (hdigits c hc)
  | decimal hwhole hfraction _ =>
    rcases List.mem_append.mp hc with hc | hc
    · exact .inl (hwhole c hc)
    · rcases List.mem_cons.mp hc with rfl | hc
      · exact .inr rfl
      · exact .inl (hfraction c hc)

theorem T_not_mem_of_whole (h : Whole cs) : 'T' ∉ cs := by
  intro hmem
  cases (whole_iff.mp h).2 'T' hmem

theorem T_not_mem_of_pointed (h : Pointed cs) : 'T' ∉ cs := by
  intro hmem
  rcases isDigit_or_point_of_pointed h 'T' hmem with h | h
  · cases h
  · cases h

theorem Part.T_not_mem {number : Option (List Char)} (h : Part P unit number cs)
    (hP : ∀ {number}, P number → 'T' ∉ number) (hunit : unit ≠ 'T') : 'T' ∉ cs := by
  cases h with
  | absent => exact List.not_mem_nil
  | present hnumber =>
    rw [List.mem_append, List.mem_singleton]
    exact fun hmem => hmem.elim (hP hnumber) fun heq => hunit heq.symm

theorem Part.eq_none_iff {number : Option (List Char)} (h : Part P unit number cs) :
    number = none ↔ cs = [] := by
  cases h <;> simp

/-- The first character that is no digit. -/
def letter (cs : List Char) : Option Char := (cs.dropWhile Char.isDigit).head?

theorem letter_append {digits : List Char} (h : AllDigits digits) {c : Char}
    (hc : c.isDigit = false) (rest : List Char) : letter (digits ++ c :: rest) = some c := by
  rw [letter, List.dropWhile_append_of_pos h, List.dropWhile_cons_of_neg (by simp [hc])]
  rfl

theorem Part.letter_ne {number : Option (List Char)} (h : Part Whole unit number cs)
    (hunit : unit.isDigit = false) {c : Char} (hc : unit ≠ c) (hrest : letter rest ≠ some c) :
    letter (cs ++ rest) ≠ some c := by
  cases h with
  | absent => exact hrest
  | present hnumber =>
    rw [List.append_assoc, List.singleton_append, letter_append (whole_iff.mp hnumber).2 hunit]
    exact fun h => hc (Option.some.inj h)

theorem Part.letter_ne_of_pointed {number : Option (List Char)} (h : Part Pointed 'S' number cs)
    {c : Char} (hc : c ≠ 'S' ∧ c ≠ '.') : letter cs ≠ some c := by
  cases h with
  | absent =>
    intro h
    cases h
  | present hnumber =>
    obtain ⟨k, hm⟩ := hnumber
    cases hm with
    | integer _ hwhole =>
      rw [letter_append hwhole rfl]
      exact fun h => hc.1 (Option.some.inj h).symm
    | decimal hwhole _ _ =>
      rw [List.append_assoc, List.cons_append, letter_append hwhole rfl]
      exact fun h => hc.2 (Option.some.inj h).symm

theorem TimePart.letter_ne {hours minutes seconds : Option (List Char)}
    (h : TimePart hours minutes seconds cs) {c : Char} (hc : 'T' ≠ c) : letter cs ≠ some c := by
  cases h with
  | absent =>
    intro h
    cases h
  | present => exact fun h => hc (Option.some.inj h)

/-! ## The form determines the components -/

theorem digits_append_inj {digits digits' rest' : List Char} (h : AllDigits digits)
    (h' : AllDigits digits') (hunit : unit.isDigit = false)
    (heq : digits ++ unit :: rest = digits' ++ unit :: rest') :
    digits = digits' ∧ rest = rest' := by
  have hsplit {digits rest : List Char} (h : AllDigits digits) :
      (digits ++ unit :: rest).takeWhile Char.isDigit = digits := by
    rw [List.takeWhile_append_of_pos h, List.takeWhile_cons_of_neg (by simp [hunit]),
      List.append_nil]
  have hdigits : digits = digits' := by
    rw [← hsplit h, heq, hsplit h']
  subst hdigits
  exact ⟨rfl, (List.cons.inj (List.append_cancel_left heq)).2⟩

/-- A number of digits is told from what follows if this does not start like another one with the
same letter. -/
theorem Part.append_inj {number number' : Option (List Char)} {cs' rest' : List Char}
    (h : Part Whole unit number cs) (h' : Part Whole unit number' cs')
    (hunit : unit.isDigit = false) (hrest : letter rest ≠ some unit)
    (hrest' : letter rest' ≠ some unit) (heq : cs ++ rest = cs' ++ rest') :
    number = number' ∧ rest = rest' := by
  cases h with
  | absent =>
    cases h' with
    | absent => exact ⟨rfl, heq⟩
    | present hnumber =>
      rw [List.nil_append, List.append_assoc, List.singleton_append] at heq
      exact absurd (heq ▸ letter_append (whole_iff.mp hnumber).2 hunit rest') hrest
  | present hnumber =>
    rw [List.append_assoc, List.singleton_append] at heq
    cases h' with
    | absent =>
      rw [List.nil_append] at heq
      exact absurd (heq ▸ letter_append (whole_iff.mp hnumber).2 hunit rest) hrest'
    | present hnumber' =>
      rw [List.append_assoc, List.singleton_append] at heq
      obtain ⟨rfl, rfl⟩ :=
        digits_append_inj (whole_iff.mp hnumber).2 (whole_iff.mp hnumber').2 hunit heq
      exact ⟨rfl, rfl⟩

theorem Part.unique {number number' : Option (List Char)} (h : Part P unit number cs)
    (h' : Part P unit number' cs) : number = number' := by
  rcases h with _ | hnumber
  · rw [h'.eq_none_iff.mpr rfl]
  · generalize heq : _ ++ [unit] = cs at h'
    cases h' with
    | absent => simp at heq
    | present => rw [List.append_cancel_right heq]

theorem TimePart.unique {hours minutes seconds hours' minutes' seconds' : Option (List Char)}
    (h : TimePart hours minutes seconds cs) (h' : TimePart hours' minutes' seconds' cs) :
    hours = hours' ∧ minutes = minutes' ∧ seconds = seconds' := by
  cases h with
  | absent =>
    cases h'
    exact ⟨rfl, rfl, rfl⟩
  | present hh hn hx =>
    generalize heq : 'T' :: _ = cs at h'
    cases h' with
    | absent => cases heq
    | present hh' hn' hx' =>
      obtain ⟨rfl, heq⟩ := hh.append_inj hh' rfl
        (hn.letter_ne rfl (by decide) (hx.letter_ne_of_pointed (by decide)))
        (hn'.letter_ne rfl (by decide) (hx'.letter_ne_of_pointed (by decide)))
        (List.cons.inj heq).2
      obtain ⟨rfl, rfl⟩ := hn.append_inj hn' rfl (hx.letter_ne_of_pointed (by decide))
        (hx'.letter_ne_of_pointed (by decide)) heq
      exact ⟨rfl, rfl, hx.unique hx'⟩

theorem Body.unique {c c' : Components} (h : Body c cs) (h' : Body c' cs)
    (hnegative : c.negative = c'.negative) : c = c' := by
  obtain @⟨y, m, d, t, hy, hm, hd, ht⟩ := h
  generalize heq : y ++ (m ++ (d ++ t)) = cs at h'
  obtain ⟨hy', hm', hd', ht'⟩ := h'
  obtain ⟨hyears, heq⟩ := hy.append_inj hy' rfl
    (hm.letter_ne rfl (by decide) (hd.letter_ne rfl (by decide) (ht.letter_ne (by decide))))
    (hm'.letter_ne rfl (by decide) (hd'.letter_ne rfl (by decide) (ht'.letter_ne (by decide)))) heq
  obtain ⟨hmonths, heq⟩ := hm.append_inj hm' rfl
    (hd.letter_ne rfl (by decide) (ht.letter_ne (by decide)))
    (hd'.letter_ne rfl (by decide) (ht'.letter_ne (by decide))) heq
  obtain ⟨hdays, rfl⟩ := hd.append_inj hd' rfl (ht.letter_ne (by decide))
    (ht'.letter_ne (by decide)) heq
  obtain ⟨hhours, hminutes, hseconds⟩ := ht.unique ht'
  show (⟨c.negative, c.years, c.months, c.days, c.hours, c.minutes, c.seconds⟩ : Components) = c'
  rw [hnegative, hyears, hmonths, hdays, hhours, hminutes, hseconds]

theorem Form.unique {c c' : Components} (h : Form c cs) (h' : Form c' cs) : c = c' := by
  obtain ⟨body, hbody, rfl⟩ := h
  obtain ⟨body', hbody', heq⟩ := h'
  have hsame : c.negative = c'.negative ∧ body = body' := by
    cases hc : c.negative <;> cases hc' : c'.negative <;> simp_all [signText]
  obtain ⟨hnegative, rfl⟩ := hsame
  exact hbody.unique hbody' hnegative

/-! ## What the form matches -/

section

open Regex

variable {atStart : Bool} {groups : Groups}

theorem matches_digits :
    digits.Matches atStart word rest groups ↔ Whole word ∧ groups = [] := by
  rw [whole_iff, digits, matches_all_pair]
  constructor
  · rintro ⟨_, _, _, _, rfl, rfl, ⟨⟨c, hc, rfl⟩, rfl⟩, hdigits, rfl⟩
    exact ⟨⟨List.cons_ne_nil _ _, .cons hc hdigits⟩, rfl⟩
  · rintro ⟨⟨hne, hdigits⟩, rfl⟩
    obtain ⟨c, cs, rfl⟩ := List.exists_cons_of_ne_nil hne
    obtain ⟨hc, hcs⟩ := List.forall_mem_cons.mp hdigits
    exact ⟨[c], cs, [], [], rfl, rfl, ⟨⟨c, hc, rfl⟩, rfl⟩, hcs, rfl⟩

theorem matches_pointDigits :
    pointDigits.Matches atStart word rest groups ↔ Pointed word ∧ groups = [] := by
  constructor
  · rintro (h | h)
    · obtain ⟨whole, _, _, _, rfl, rfl, hfront, hback⟩ := matches_all_pair.mp h
      obtain ⟨hne, hwhole⟩ := whole_iff.mp (matches_digits.mp hfront).1
      obtain rfl := (matches_digits.mp hfront).2
      rcases hback with hback | ⟨rfl, rfl⟩
      · obtain ⟨fraction, rfl, hmany⟩ := matches_all_char.mp hback
        obtain ⟨hfraction, rfl⟩ := matches_all_singleton.mp hmany
        exact ⟨⟨_, .decimal hwhole hfraction (List.append_ne_nil_of_left_ne_nil hne _)⟩, rfl⟩
      · rw [List.append_nil]
        exact ⟨⟨_, .integer hne hwhole⟩, rfl⟩
    · obtain ⟨fraction, rfl, hback⟩ := matches_all_char.mp h
      obtain ⟨hdigits, rfl⟩ := matches_digits.mp (matches_all_singleton.mp hback)
      obtain ⟨hne, hfraction⟩ := whole_iff.mp hdigits
      exact ⟨⟨_, .decimal .nil hfraction hne⟩, rfl⟩
  · rintro ⟨⟨k, hm⟩, rfl⟩
    cases hm with
    | integer hne hwhole =>
      refine .inl (matches_all_pair.mpr ⟨word, [], [], [], by simp, rfl, ?_, .inr ⟨rfl, rfl⟩⟩)
      exact matches_digits.mpr ⟨whole_iff.mpr ⟨hne, hwhole⟩, rfl⟩
    | @decimal whole fraction hwhole hfraction hne =>
      by_cases hempty : whole = []
      · subst hempty
        refine .inr (matches_all_char.mpr ⟨fraction, rfl, matches_all_singleton.mpr ?_⟩)
        exact matches_digits.mpr ⟨whole_iff.mpr ⟨hne, hfraction⟩, rfl⟩
      · refine .inl (matches_all_pair.mpr
          ⟨whole, '.' :: fraction, [], [], rfl, rfl, ?_, .inl ?_⟩)
        · exact matches_digits.mpr ⟨whole_iff.mpr ⟨hempty, hwhole⟩, rfl⟩
        · exact matches_all_char.mpr
            ⟨fraction, rfl, matches_all_singleton.mpr ⟨hfraction, rfl⟩⟩

/-- The group of a component, if it has matched. -/
def captured (i : Nat) : Option (List Char) → Groups
  | none => []
  | some number => [(i, number)]

theorem matches_component {r : Regex} {i : Nat}
    (hr : ∀ {atStart word rest groups}, r.Matches atStart word rest groups ↔ P word ∧ groups = []) :
    (component i r unit).Matches atStart word rest groups ↔
      ∃ number, Part P unit number word ∧ groups = captured i number := by
  constructor
  · rintro (h | ⟨rfl, rfl⟩)
    · obtain ⟨number, _, _, _, rfl, rfl, ⟨_, rfl, hgroup⟩, hunit⟩ := matches_all_pair.mp h
      obtain ⟨hnumber, rfl⟩ := hr.mp hgroup
      obtain ⟨rfl, rfl⟩ := matches_char.mp hunit
      exact ⟨some number, .present hnumber, rfl⟩
    · exact ⟨none, .absent, rfl⟩
  · rintro ⟨number, hpart, rfl⟩
    cases hpart with
    | absent => exact .inr ⟨rfl, rfl⟩
    | @present number hnumber =>
      refine .inl (matches_all_pair.mpr ⟨number, [unit], _, [], rfl, rfl, ⟨[], rfl, ?_⟩, ?_⟩)
      · exact hr.mpr ⟨hnumber, rfl⟩
      · exact matches_char.mpr ⟨rfl, rfl⟩

theorem matches_timeForm :
    timeForm.Matches atStart word rest groups ↔
      ∃ hours minutes seconds, TimePart hours minutes seconds word ∧
        groups = captured 5 hours ++ (captured 6 minutes ++ captured 7 seconds) := by
  constructor
  · rintro (h | ⟨rfl, rfl⟩)
    · obtain ⟨_, rfl, hparts⟩ := matches_all_char.mp h
      obtain ⟨_, _, _, _, rfl, rfl, hhours, hrest⟩ := matches_all_cons.mp hparts
      obtain ⟨_, _, _, _, rfl, rfl, hminutes, hseconds⟩ := matches_all_pair.mp hrest
      obtain ⟨hours, hh, rfl⟩ := (matches_component matches_digits).mp hhours
      obtain ⟨minutes, hn, rfl⟩ := (matches_component matches_digits).mp hminutes
      obtain ⟨seconds, hx, rfl⟩ := (matches_component matches_pointDigits).mp hseconds
      exact ⟨hours, minutes, seconds, .present hh hn hx, rfl⟩
    · exact ⟨none, none, none, .absent, rfl⟩
  · rintro ⟨hours, minutes, seconds, htime, rfl⟩
    cases htime with
    | absent => exact .inr ⟨rfl, rfl⟩
    | @present _ _ _ h n x hh hn hx =>
      refine .inl (matches_all_char.mpr ⟨_, rfl, ?_⟩)
      refine matches_all_cons.mpr ⟨h, _, _, _, rfl, rfl,
        (matches_component matches_digits).mpr ⟨hours, hh, rfl⟩, ?_⟩
      exact matches_all_pair.mpr ⟨n, x, _, _, rfl, rfl,
        (matches_component matches_digits).mpr ⟨minutes, hn, rfl⟩,
        (matches_component matches_pointDigits).mpr ⟨seconds, hx, rfl⟩⟩

/-- The group of the sign, if it has matched. -/
def signGroup (negative : Bool) : Groups := if negative then [(1, ['-'])] else []

theorem matches_sign :
    (optional (.group 1 (.char '-'))).Matches atStart word rest groups ↔
      ∃ negative, word = signText negative ∧ groups = signGroup negative := by
  constructor
  · rintro (⟨_, rfl, hminus⟩ | ⟨rfl, rfl⟩)
    · obtain ⟨rfl, rfl⟩ := matches_char.mp hminus
      exact ⟨true, rfl, rfl⟩
    · exact ⟨false, rfl, rfl⟩
  · rintro ⟨negative, rfl, rfl⟩
    cases negative with
    | true => exact .inl ⟨[], rfl, matches_char.mpr ⟨rfl, rfl⟩⟩
    | false => exact .inr ⟨rfl, rfl⟩

/-- The groups of a match of the form. -/
def groupsOf (c : Components) : Groups :=
  signGroup c.negative ++ (captured 2 c.years ++ (captured 3 c.months ++ (captured 4 c.days ++
    (captured 5 c.hours ++ (captured 6 c.minutes ++ captured 7 c.seconds)))))

theorem matches_form :
    form.Matches atStart word rest groups ↔
      atStart = true ∧ rest = [] ∧ ∃ c, Form c word ∧ groups = groupsOf c := by
  rw [form, matches_all_start]
  refine and_congr_right fun _ => ?_
  constructor
  · intro h
    obtain ⟨_, _, _, _, rfl, rfl, hsign, hP⟩ := matches_all_cons.mp h
    obtain ⟨_, rfl, hY⟩ := matches_all_char.mp hP
    obtain ⟨_, _, _, _, rfl, rfl, hyears, hM⟩ := matches_all_cons.mp hY
    obtain ⟨_, _, _, _, rfl, rfl, hmonths, hD⟩ := matches_all_cons.mp hM
    obtain ⟨_, _, _, _, rfl, rfl, hdays, hT⟩ := matches_all_cons.mp hD
    obtain ⟨_, _, _, _, rfl, rfl, htime, rfl, rfl, rfl⟩ := matches_all_pair.mp hT
    obtain ⟨negative, rfl, rfl⟩ := matches_sign.mp hsign
    obtain ⟨years, hy, rfl⟩ := (matches_component matches_digits).mp hyears
    obtain ⟨months, hm, rfl⟩ := (matches_component matches_digits).mp hmonths
    obtain ⟨days, hd, rfl⟩ := (matches_component matches_digits).mp hdays
    obtain ⟨hours, minutes, seconds, ht, rfl⟩ := matches_timeForm.mp htime
    rw [List.append_nil, List.append_nil]
    exact ⟨rfl, ⟨negative, years, months, days, hours, minutes, seconds⟩,
      ⟨_, .mk hy hm hd ht, rfl⟩, rfl⟩
  · rintro ⟨rfl, c, ⟨_, @⟨y, m, d, t, hy, hm, hd, ht⟩, rfl⟩, rfl⟩
    refine matches_all_cons.mpr ⟨signText c.negative, _, _, _, rfl, rfl,
      matches_sign.mpr ⟨c.negative, rfl, rfl⟩, matches_all_char.mpr ⟨_, rfl, ?_⟩⟩
    refine matches_all_cons.mpr ⟨y, _, _, _, rfl, rfl,
      (matches_component matches_digits).mpr ⟨c.years, hy, rfl⟩, ?_⟩
    refine matches_all_cons.mpr ⟨m, _, _, _, rfl, rfl,
      (matches_component matches_digits).mpr ⟨c.months, hm, rfl⟩, ?_⟩
    refine matches_all_cons.mpr ⟨d, _, _, _, rfl, rfl,
      (matches_component matches_digits).mpr ⟨c.days, hd, rfl⟩, ?_⟩
    exact matches_all_pair.mpr ⟨t, [], _, [], (List.append_nil t).symm, (List.append_nil _).symm,
      matches_timeForm.mpr ⟨c.hours, c.minutes, c.seconds, ht, rfl⟩, rfl, rfl, rfl⟩

theorem lookup_captured (i j : Nat) (number : Option (List Char)) :
    (captured i number).lookup j = if j = i then number else none := by
  cases number with
  | none => simp [captured]
  | some number =>
    rw [captured, List.lookup_cons, List.lookup_nil]
    split
    · next h => rw [if_pos (beq_iff_eq.mp h)]
    · next h => rw [if_neg (beq_eq_false_iff_ne.mp h)]

theorem ofGroups_groupsOf (c : Components) : Components.ofGroups (groupsOf c) = c := by
  obtain ⟨negative, years, months, days, hours, minutes, seconds⟩ := c
  cases negative
  all_goals
    simp [Components.ofGroups, groupsOf, signGroup, List.lookup_append, lookup_captured,
      List.lookup_cons]

/-- The text has no component at all, or ends with `T`. -/
def Incomplete (cs : List Char) : Prop :=
  cs = ['P'] ∨ cs = ['-', 'P'] ∨ ∃ front, cs = front ++ ['T']

theorem isMatch_incomplete : incomplete.isMatch cs = true ↔ Incomplete cs := by
  rw [isMatch_iff]
  constructor
  · rintro ⟨before, word, rest, groups, rfl, h | h⟩
    · obtain ⟨hbefore, hsign⟩ := matches_all_start.mp h
      obtain rfl := List.isEmpty_iff.mp hbefore
      obtain ⟨_, _, _, _, rfl, rfl, hminus, hP⟩ := matches_all_cons.mp hsign
      obtain ⟨_, rfl, hstop⟩ := matches_all_char.mp hP
      obtain ⟨rfl, rfl, rfl⟩ := matches_all_singleton.mp hstop
      rcases hminus with hminus | ⟨rfl, rfl⟩
      · obtain ⟨rfl, rfl⟩ := matches_char.mp hminus
        exact .inr (.inl rfl)
      · exact .inl rfl
    · obtain ⟨_, rfl, hstop⟩ := matches_all_char.mp h
      obtain ⟨rfl, rfl, rfl⟩ := matches_all_singleton.mp hstop
      exact .inr (.inr ⟨before, rfl⟩)
  · have hbare {sign : List Char} (hsign : (optional (.char '-')).Matches true sign ['P'] []) :
        ∃ before word rest groups, sign ++ ['P'] = before ++ (word ++ rest) ∧
          incomplete.Matches before.isEmpty word rest groups := by
      refine ⟨[], sign ++ ['P'], [], [], by simp, .inl (matches_all_start.mpr ⟨rfl, ?_⟩)⟩
      refine matches_all_cons.mpr ⟨sign, ['P'], [], [], rfl, rfl, hsign, ?_⟩
      exact matches_all_char.mpr ⟨[], rfl, matches_all_singleton.mpr ⟨rfl, rfl, rfl⟩⟩
    rintro (rfl | rfl | ⟨front, rfl⟩)
    · exact hbare (.inr ⟨rfl, rfl⟩)
    · exact hbare (.inl (matches_char.mpr ⟨rfl, rfl⟩))
    · refine ⟨front, ['T'], [], [], rfl, .inr ?_⟩
      exact matches_all_char.mpr ⟨[], rfl, matches_all_singleton.mpr ⟨rfl, rfl, rfl⟩⟩

/-- What has the form is captured, and nothing else is. -/
theorem map_ofGroups_captures? {c : Components} :
    (form.captures? cs).map Components.ofGroups = some c ↔ Form c cs := by
  have hsound {groups : Groups} (h : form.captures? cs = some groups) :
      Form (Components.ofGroups groups) cs := by
    obtain ⟨before, word, rest, rfl, hmatch⟩ := exists_matches h
    obtain ⟨hbefore, rfl, c, hform, rfl⟩ := matches_form.mp hmatch
    rw [List.isEmpty_iff.mp hbefore, List.nil_append, List.append_nil, ofGroups_groupsOf]
    exact hform
  rw [Option.map_eq_some_iff]
  constructor
  · rintro ⟨groups, hgroups, rfl⟩
    exact hsound hgroups
  · intro hform
    have hmatch : form.Matches true cs [] (groupsOf c) := matches_form.mpr ⟨rfl, rfl, c, hform, rfl⟩
    have hsome : (form.captures? ([] ++ (cs ++ []))).isSome = true := captures?_isSome hmatch
    rw [List.nil_append, List.append_nil] at hsome
    obtain ⟨groups, hgroups⟩ := Option.isSome_iff_exists.mp hsome
    exact ⟨groups, hgroups, (hsound hgroups).unique hform⟩

end

/-! ## What is incomplete -/

theorem TimePart.tail_spec {hours minutes seconds : Option (List Char)} {tail : List Char}
    (h : TimePart hours minutes seconds ('T' :: tail)) :
    'T' ∉ tail ∧ (tail = [] ↔ hours = none ∧ minutes = none ∧ seconds = none) := by
  cases h with
  | present hh hn hx =>
    constructor
    · simp only [List.mem_append, not_or]
      exact ⟨hh.T_not_mem T_not_mem_of_whole (by decide),
        hn.T_not_mem T_not_mem_of_whole (by decide), hx.T_not_mem T_not_mem_of_pointed (by decide)⟩
    · rw [hh.eq_none_iff, hn.eq_none_iff, hx.eq_none_iff]
      simp

/-- A text ends with a `T` that is its last one if nothing stands behind that. -/
theorem exists_front_iff {before tail : List Char} (h : 'T' ∉ tail) :
    (∃ front, before ++ 'T' :: tail = front ++ ['T']) ↔ tail = [] := by
  constructor
  · rintro ⟨front, heq⟩
    rcases List.eq_nil_or_concat tail with hnil | ⟨init, last, rfl⟩
    · exact hnil
    · have hconcat : (before ++ 'T' :: init) ++ [last] = front ++ ['T'] := by
        rw [← heq]
        simp
      obtain ⟨-, hlast⟩ := List.append_inj' hconcat rfl
      obtain rfl := (List.cons.inj hlast).1
      exact absurd (by simp) h
  · rintro rfl
    exact ⟨before, rfl⟩

theorem incomplete_iff {negative : Bool} {body : List Char} :
    Incomplete (signText negative ++ 'P' :: body) ↔ body = [] ∨ ∃ front, body = front ++ ['T'] := by
  have hbare : (signText negative ++ 'P' :: body = ['P'] ∨
      signText negative ++ 'P' :: body = ['-', 'P']) ↔ body = [] := by
    cases negative <;> simp [signText]
  rw [Incomplete, ← or_assoc, hbare]
  refine or_congr_right' fun hne => ?_
  obtain ⟨init, last, rfl⟩ := (List.eq_nil_or_concat body).resolve_left hne
  constructor
  · rintro ⟨front, heq⟩
    rw [List.concat_eq_append, ← List.cons_append, ← List.append_assoc] at heq
    obtain ⟨-, hlast⟩ := List.append_inj' heq rfl
    exact ⟨init, by rw [List.concat_eq_append, hlast]⟩
  · rintro ⟨front, heq⟩
    rw [heq]
    exact ⟨signText negative ++ 'P' :: front, by simp⟩

theorem complete_iff {c : Components} {negative : Bool} {body : List Char} :
    Complete c (signText negative ++ 'P' :: body) ↔
      (c.years ≠ none ∨ c.months ≠ none ∨ c.days ≠ none ∨ c.hours ≠ none ∨ c.minutes ≠ none ∨
        c.seconds ≠ none) ∧
      ('T' ∈ body → c.hours ≠ none ∨ c.minutes ≠ none ∨ c.seconds ≠ none) := by
  have hbody : 'T' ∈ signText negative ++ 'P' :: body ↔ 'T' ∈ body := by
    cases negative <;> simp [signText]
  constructor
  · intro h
    exact ⟨h.component, fun hT => h.time (hbody.mpr hT)⟩
  · intro h
    exact ⟨h.1, fun hT => h.2 (hbody.mp hT)⟩

/-- A text of the form has what it must have unless it is incomplete. -/
theorem Form.complete_iff {c : Components} (h : Form c cs) : Complete c cs ↔ ¬Incomplete cs := by
  obtain ⟨_, @⟨y, m, d, t, hy, hm, hd, ht⟩, rfl⟩ := h
  have hdate : 'T' ∉ y ++ (m ++ d) := by
    simp only [List.mem_append, not_or]
    exact ⟨hy.T_not_mem T_not_mem_of_whole (by decide),
      hm.T_not_mem T_not_mem_of_whole (by decide), hd.T_not_mem T_not_mem_of_whole (by decide)⟩
  rw [Duration.complete_iff, incomplete_iff, show y ++ (m ++ (d ++ t)) = y ++ (m ++ d) ++ t by simp]
  generalize c.hours = hours at ht ⊢
  generalize c.minutes = minutes at ht ⊢
  generalize c.seconds = seconds at ht ⊢
  cases ht with
  | absent =>
    have hfront : ¬∃ front, y ++ (m ++ d) = front ++ ['T'] := by
      rintro ⟨front, heq⟩
      rw [heq] at hdate
      simp at hdate
    rw [List.append_nil]
    simp only [hfront, hdate, ne_eq, hy.eq_none_iff, hm.eq_none_iff, hd.eq_none_iff,
      List.append_eq_nil_iff]
    grind
  | @present _ _ _ h n x hh hn hx =>
    obtain ⟨htail, hnone⟩ := (TimePart.present hh hn hx).tail_spec
    have hT : 'T' ∈ y ++ (m ++ d) ++ 'T' :: (h ++ (n ++ x)) :=
      List.mem_append_right _ List.mem_cons_self
    rw [exists_front_iff htail, hnone]
    simp only [hT, List.append_eq_nil_iff]
    grind

/-- Reading accepts the texts of durations and nothing else: the difference of the two patterns. -/
theorem ofChars?_eq_some {c : Components} : Components.ofChars? cs = some c ↔ Written c cs := by
  rw [Components.ofChars?]
  by_cases hincomplete : Incomplete cs
  · rw [if_pos (isMatch_incomplete.mpr hincomplete)]
    constructor
    · intro h
      cases h
    · intro h
      exact absurd hincomplete (h.1.complete_iff.mp h.2)
  · rw [if_neg fun h => hincomplete (isMatch_incomplete.mp h), map_ofGroups_captures?]
    exact ⟨fun h => ⟨h, h.complete_iff.mpr hincomplete⟩, And.left⟩

theorem allowed_iff {c : Components} {kind : DurationKind} :
    c.allowed kind = true ↔ OfKind c kind := by
  cases kind
  all_goals
    simp [Components.allowed, OfKind, Components.hasYearMonth, Components.hasDayTime, and_assoc]

end Duration

end XQuery
