import XQuery.Proofs.Number.CheckedSteps
import XQuery.Proofs.Value.DurationPatterns

/-!
# The form and the value of durations

Exactly what does not have the form of a duration of its kind is invalid, as
kinds are checked before ranges. What has the form is exact or out of range
(`Duration.parse_exact`): the numbers of its components are read and added up
step by step, each step checked on its own, and a step fails only where the
months or the seconds do not fit (`Components.totalMonths?_eq`,
`Components.totalSeconds?_eq`).
-/

namespace XQuery

namespace Decimal

/-! ## Reading numbers -/

/-- The digits before and behind the point. -/
def pointParts (cs : List Char) : List Char × List Char :=
  (Text.splitAtFirst? (· == '.') cs).getD (cs, [])

theorem pointParts_integer {whole : List Char} (h : AllDigits whole) :
    pointParts whole = (whole, []) := by
  rw [pointParts, Text.splitAtFirst?_eq_none.mpr (Literal.not_point_of_allDigits h)]
  rfl

theorem pointParts_decimal {whole : List Char} (h : AllDigits whole) (fraction : List Char) :
    pointParts (whole ++ '.' :: fraction) = (whole, fraction) := by
  have hsplit : Text.splitAtFirst? (· == '.') (whole ++ '.' :: fraction) = some (whole, fraction) :=
    Text.splitAtFirst?_eq_some.mpr ⟨'.', rfl, Literal.not_point_of_allDigits h, rfl⟩
  rw [pointParts, hsplit]
  rfl

/-- A number that starts with a digit is read without a sign. -/
theorem ofText?_of_isDigit {c : Char} {cs : List Char} (hc : c.isDigit = true)
    (h : Digits.isDigits ((pointParts (c :: cs)).1 ++ (pointParts (c :: cs)).2) = true) :
    ofText? (String.ofList (c :: cs))
      = ofDigits? (pointParts (c :: cs)).1 (pointParts (c :: cs)).2 := by
  rw [ofText?, String.toList_ofList]
  split
  next negative digits hsign =>
    split at hsign
    · next hminus =>
        cases hminus
        cases hc
    · next hplus =>
        cases hplus
        cases hc
    · cases hsign
      show (if Digits.isDigits ((pointParts (c :: cs)).1 ++ (pointParts (c :: cs)).2) then
        (ofDigits? (pointParts (c :: cs)).1 (pointParts (c :: cs)).2).map
          fun d => if false && !d.isZero then d.neg else d else none) = _
      rw [if_pos h]
      simp

theorem ofText?_integer {whole : List Char} (hne : whole ≠ []) (h : AllDigits whole) :
    ofText? (String.ofList whole) = ofDigits? whole [] := by
  obtain ⟨c, cs, rfl⟩ := List.exists_cons_of_ne_nil hne
  have hparts := pointParts_integer h
  rw [ofText?_of_isDigit (h c List.mem_cons_self), hparts]
  rw [hparts, List.append_nil]
  exact Digits.isDigits_iff.mpr ⟨hne, h⟩

theorem ofText?_decimal {whole fraction : List Char} (hne : whole ≠ []) (hwhole : AllDigits whole)
    (hfraction : AllDigits fraction) :
    ofText? (String.ofList (whole ++ '.' :: fraction)) = ofDigits? whole fraction := by
  obtain ⟨c, cs, rfl⟩ := List.exists_cons_of_ne_nil hne
  have hparts := pointParts_decimal hwhole fraction
  rw [List.cons_append] at hparts ⊢
  rw [ofText?_of_isDigit (hwhole c List.mem_cons_self), hparts]
  rw [hparts]
  refine Digits.isDigits_iff.mpr ⟨by simp, fun d hd => ?_⟩
  exact (List.mem_append.mp hd).elim (hwhole d) (hfraction d)

theorem ofDigits?_whole (whole : List Char) : ofDigits? whole [] = ofNat? (Digits.value whole) := by
  rw [ofDigits?]
  simp only
  split
  · rfl
  · next hlimit => rw [ofNat?_eq_none.mpr (Nat.le_of_not_lt hlimit)]

/-- A zero in front of the point may be left out. -/
theorem ofDigits?_zero (fraction : List Char) :
    ofDigits? ['0'] fraction = ofDigits? [] fraction := by
  have hzero : Digits.value ['0'] = Digits.value [] := by decide
  rw [ofDigits?, ofDigits?, hzero]

end Decimal

namespace Duration

namespace Components

/-- The number that a component of digits writes; an absent one is zero. -/
def value (digits : Option (List Char)) : Nat := (digits.map Digits.value).getD 0

/-- The digits that a component writes before and behind the point; an absent one has none. -/
def parts (number : Option (List Char)) : List Char × List Char :=
  (number.map Decimal.pointParts).getD ([], [])

theorem integer?_eq {number : Option (List Char)} (h : ∀ cs ∈ number, Whole cs) :
    integer? number = Signed64.ofInt? (value number) := by
  cases number with
  | none => rfl
  | some cs => exact if_pos (h cs rfl)

/-- Where digits stand at the end, no point is dropped. -/
theorem stripEnd?_digits (front : List Char) {digits : List Char} (hne : digits ≠ [])
    (h : AllDigits digits) :
    (Text.stripEnd? ['.'] (front ++ digits)).getD (front ++ digits) = front ++ digits := by
  cases hstrip : Text.stripEnd? ['.'] (front ++ digits) with
  | none => rfl
  | some rest =>
    obtain ⟨init, last, rfl⟩ := (List.eq_nil_or_concat digits).resolve_left hne
    have heq := Text.stripEnd?_eq_some.mp hstrip
    rw [List.concat_eq_append, ← List.append_assoc] at heq
    obtain ⟨-, hlast⟩ := List.append_inj' heq rfl
    cases hlast
    cases h '.' (by simp)

theorem decimal?_of_isDigit {number : List Char} {c : Char} {cs : List Char}
    (hstrip : (Text.stripEnd? ['.'] number).getD number = c :: cs) (hc : c.isDigit = true) :
    decimal? (some number) = Decimal.ofText? (String.ofList (c :: cs)) := by
  rw [decimal?, hstrip]
  split
  · next hpoint =>
      cases hpoint
      cases hc
  · rfl

theorem decimal?_integer {whole : List Char} (hne : whole ≠ []) (h : AllDigits whole) :
    decimal? (some whole) = Decimal.ofDigits? whole [] := by
  have hstrip := stripEnd?_digits [] hne h
  rw [List.nil_append] at hstrip
  obtain ⟨c, cs, rfl⟩ := List.exists_cons_of_ne_nil hne
  rw [decimal?_of_isDigit hstrip (h c List.mem_cons_self), Decimal.ofText?_integer hne h]

/-- A point without digits behind it is dropped. -/
theorem decimal?_point {whole : List Char} (hne : whole ≠ []) (h : AllDigits whole) :
    decimal? (some (whole ++ ['.'])) = Decimal.ofDigits? whole [] := by
  have hstrip : (Text.stripEnd? ['.'] (whole ++ ['.'])).getD (whole ++ ['.']) = whole := by
    rw [Text.stripEnd?_eq_some.mpr rfl, Option.getD_some]
  obtain ⟨c, cs, rfl⟩ := List.exists_cons_of_ne_nil hne
  rw [decimal?_of_isDigit hstrip (h c List.mem_cons_self), Decimal.ofText?_integer hne h]

/-- A point without digits before it has a zero put in front of it. -/
theorem decimal?_fraction {whole fraction : List Char} (hwhole : AllDigits whole)
    (hne : fraction ≠ []) (hfraction : AllDigits fraction) :
    decimal? (some (whole ++ '.' :: fraction)) = Decimal.ofDigits? whole fraction := by
  have hstrip := stripEnd?_digits (whole ++ ['.']) hne hfraction
  rw [List.append_assoc, List.singleton_append] at hstrip
  cases whole with
  | nil =>
    have hzero : AllDigits ['0'] := .cons rfl .nil
    rw [decimal?, hstrip]
    show Decimal.ofText? (String.ofList (['0'] ++ '.' :: fraction)) = _
    rw [Decimal.ofText?_decimal (List.cons_ne_nil _ _) hzero hfraction, Decimal.ofDigits?_zero]
  | cons c cs =>
    rw [List.cons_append] at hstrip ⊢
    rw [decimal?_of_isDigit hstrip (hwhole c List.mem_cons_self), ← List.cons_append,
      Decimal.ofText?_decimal (List.cons_ne_nil _ _) hwhole hfraction]

/-- Wherever the point stands, the digits around it are read. -/
theorem decimal?_eq {number : Option (List Char)} (h : ∀ cs ∈ number, Pointed cs) :
    decimal? number = Decimal.ofDigits? (parts number).1 (parts number).2 := by
  cases number with
  | none => rfl
  | some cs =>
    have hparts : parts (some cs) = Decimal.pointParts cs := rfl
    rw [hparts]
    obtain ⟨k, hm⟩ := h cs rfl
    cases hm with
    | integer hne hwhole =>
      rw [Decimal.pointParts_integer hwhole]
      exact decimal?_integer hne hwhole
    | @decimal whole fraction hwhole hfraction hne =>
      rw [Decimal.pointParts_decimal hwhole]
      by_cases hnone : fraction = []
      · subst hnone
        rw [List.append_nil] at hne
        exact decimal?_point hne hwhole
      · exact decimal?_fraction hwhole hnone hfraction

theorem parts_whole {number : Option (List Char)} (h : ∀ cs ∈ number, Whole cs) :
    Digits.value (parts number).1 = value number ∧ (parts number).2 = [] := by
  cases number with
  | none => exact ⟨rfl, rfl⟩
  | some cs =>
    have hparts : parts (some cs) = (cs, []) :=
      Decimal.pointParts_integer (whole_iff.mp (h cs rfl)).2
    rw [hparts]
    exact ⟨rfl, rfl⟩

theorem decimal?_whole {number : Option (List Char)} (h : ∀ cs ∈ number, Whole cs) :
    decimal? number = Decimal.ofNat? (value number) := by
  have hpointed : ∀ cs ∈ number, Pointed cs := by
    intro cs hcs
    obtain ⟨hne, hdigits⟩ := whole_iff.mp (h cs hcs)
    exact ⟨_, .integer hne hdigits⟩
  obtain ⟨hvalue, hfraction⟩ := parts_whole h
  rw [decimal?_eq hpointed, hfraction, Decimal.ofDigits?_whole, hvalue]

/-! ## Adding up -/

/-- All components write numbers. -/
structure Numeric (c : Components) : Prop where
  years : ∀ cs ∈ c.years, Whole cs
  months : ∀ cs ∈ c.months, Whole cs
  days : ∀ cs ∈ c.days, Whole cs
  hours : ∀ cs ∈ c.hours, Whole cs
  minutes : ∀ cs ∈ c.minutes, Whole cs
  seconds : ∀ cs ∈ c.seconds, Pointed cs

/-- The months that the components add up to. -/
def monthCount (c : Components) : Nat := 12 * value c.years + value c.months

/-- The minutes that the components before the seconds add up to. -/
def minuteCount (c : Components) : Nat := (value c.days * 24 + value c.hours) * 60 + value c.minutes

/-- The digits of the seconds behind the point. -/
def fraction (c : Components) : List Char := (parts c.seconds).2

/-- The seconds that the components add up to, less those behind the point. -/
def wholeSeconds (c : Components) : Nat := c.minuteCount * 60 + Digits.value (parts c.seconds).1

/-- The seconds that the components add up to, in units of the last place that is written. -/
def secondCount (c : Components) : Nat :=
  c.wholeSeconds * 10 ^ c.fraction.length + Digits.value c.fraction

/-- Both totals can be held, the seconds with all the places that are written. -/
def Fits (c : Components) : Prop :=
  c.fraction.length ≤ 28 ∧ c.monthCount ≤ 2 ^ 63 - 1 ∧ c.secondCount < 2 ^ 96

/-- The sign that is written. -/
def sign (c : Components) : Int := if c.negative then -1 else 1

variable {c : Components}

/-- Both totals take the sign that is written, so that they never have opposite ones. -/
theorem sign_mul_sameSign (c : Components) {m n : Int} (hm : 0 ≤ m) (hn : 0 ≤ n) :
    (0 ≤ c.sign * m ∧ 0 ≤ c.sign * n) ∨ (c.sign * m ≤ 0 ∧ c.sign * n ≤ 0) := by
  rw [sign]
  split
  · exact .inr ⟨by omega, by omega⟩
  · exact .inl ⟨by omega, by omega⟩

theorem natAbs_sign_mul (c : Components) (n : Int) : (c.sign * n).natAbs = n.natAbs := by
  rw [sign]
  split <;> omega

theorem fixedPoint_sign (c : Components) (seconds : Decimal) :
    (if c.negative then seconds.neg else seconds).fixedPoint = c.sign * seconds.fixedPoint := by
  rw [sign]
  split
  · rw [Decimal.fixedPoint_neg, Int.neg_one_mul]
  · rw [Int.one_mul]

/-- The steps to the months fail exactly if the months do not fit. -/
theorem totalMonths?_eq (h : c.Numeric) : c.totalMonths? = Signed64.ofInt? c.monthCount := by
  calc c.totalMonths?
      = (integer? c.years).bind fun years => (integer? c.months).bind fun months =>
          (Signed64.mul? years 12).bind fun years => Signed64.add? years months := rfl
    _ = ((integer? c.years).bind fun years => Signed64.mul? years 12).bind fun years =>
          (integer? c.months).bind fun months => Signed64.add? years months := by
        simp only [Option.bind_assoc, Option.bind_comm (integer? c.months)]
    _ = (Signed64.ofInt? (value c.years * 12 : Nat)).bind fun years =>
          (Signed64.ofInt? (value c.months)).bind fun months => Signed64.add? years months := by
        rw [integer?_eq h.years, integer?_eq h.months]
        exact congrArg (Option.bind · _) (Signed64.bind_mul? (k := 12) _ (by decide))
    _ = Signed64.ofInt? (value c.years * 12 + value c.months : Nat) := Signed64.bind_add? _ _
    _ = Signed64.ofInt? c.monthCount := by rw [monthCount, Nat.mul_comm]

/-- The steps to the minutes fail exactly if the minutes, as seconds, do not fit. -/
theorem totalSeconds?_eq (h : c.Numeric) :
    c.totalSeconds? = (Decimal.ofNat? (c.minuteCount * 60)).bind fun whole =>
      (decimal? c.seconds).bind fun seconds => whole.add? seconds := by
  calc c.totalSeconds?
      = (decimal? c.days).bind fun days => (decimal? c.hours).bind fun hours =>
          (decimal? c.minutes).bind fun minutes => (decimal? c.seconds).bind fun seconds =>
          (days.mulNat? 24).bind fun days => (days.add? hours).bind fun hours =>
          (hours.mulNat? 60).bind fun hours => (hours.add? minutes).bind fun minutes =>
          (minutes.mulNat? 60).bind fun minutes => minutes.add? seconds := rfl
    _ = (((((decimal? c.days).bind fun days => days.mulNat? 24).bind fun days =>
          (decimal? c.hours).bind fun hours => days.add? hours).bind fun hours =>
          hours.mulNat? 60).bind fun hours =>
          (decimal? c.minutes).bind fun minutes => hours.add? minutes).bind fun minutes =>
          (minutes.mulNat? 60).bind fun whole =>
          (decimal? c.seconds).bind fun seconds => whole.add? seconds := by
        -- each number is read where it is added
        simp only [Option.bind_assoc]
        simp only [Option.bind_comm (decimal? c.seconds)]
        simp only [Option.bind_comm (decimal? c.minutes)]
        simp only [Option.bind_comm (decimal? c.hours)]
    _ = ((Decimal.ofNat? c.minuteCount).bind fun minutes => minutes.mulNat? 60).bind fun whole =>
          (decimal? c.seconds).bind fun seconds => whole.add? seconds := by
        rw [decimal?_whole h.days, decimal?_whole h.hours, decimal?_whole h.minutes,
          Decimal.bind_mulNat? _ (by decide), Decimal.bind_add?, Decimal.bind_mulNat? _ (by decide),
          Decimal.bind_add?, minuteCount, Option.bind_assoc]
    _ = (Decimal.ofNat? (c.minuteCount * 60)).bind fun whole =>
          (decimal? c.seconds).bind fun seconds => whole.add? seconds := by
        rw [Decimal.bind_mulNat? _ (by decide)]

/-- Whole seconds are summed up if they fit, and refused otherwise. -/
theorem totalSeconds?_whole (h : c.Numeric) (hwhole : c.fraction = []) :
    c.totalSeconds? = Decimal.ofNat? c.secondCount := by
  have hseconds : decimal? c.seconds = Decimal.ofNat? (Digits.value (parts c.seconds).1) := by
    rw [decimal?_eq h.seconds, ← Decimal.ofDigits?_whole]
    exact congrArg _ hwhole
  rw [totalSeconds?_eq h, hseconds, Decimal.bind_add?, secondCount, hwhole, List.length_nil,
    Nat.pow_zero, Nat.mul_one]
  rfl

theorem decimal?_seconds_exact (h : c.Numeric) (hplaces : c.fraction.length ≤ Decimal.maxScale)
    (hcount : c.secondCount < Decimal.mantissaLimit) :
    ∃ d, decimal? c.seconds = some d ∧ d.negative = false ∧ d.scale = c.fraction.length ∧
      d.mantissa = Digits.value (parts c.seconds).1 * 10 ^ c.fraction.length
        + Digits.value c.fraction := by
  have hm : Digits.valueFrom (Digits.value (parts c.seconds).1) c.fraction
      < Decimal.mantissaLimit := by
    rw [Digits.valueFrom_eq]
    refine Nat.lt_of_le_of_lt (Nat.add_le_add_right ?_ _) hcount
    exact Nat.mul_le_mul_right _ (Nat.le_add_left ..)
  obtain ⟨d, hd⟩ := Decimal.exists_make? false hm hplaces
  obtain ⟨hnegative, hmantissa, hscale⟩ := Decimal.make?_eq_some.mp hd
  refine ⟨d, ?_, hnegative, hscale, by rw [hmantissa, Digits.valueFrom_eq]⟩
  rw [decimal?_eq h.seconds, ← hd]
  exact Decimal.ofDigits?_exact hplaces hm

/-- The seconds are exact if all places that are written fit. -/
theorem totalSeconds?_exact (h : c.Numeric) (hplaces : c.fraction.length ≤ Decimal.maxScale)
    (hlt : c.secondCount < Decimal.mantissaLimit) :
    ∃ d, c.totalSeconds? = some d ∧
      d.fixedPoint = c.secondCount * 10 ^ (Decimal.maxScale - c.fraction.length) := by
  obtain ⟨x, hx, hxneg, hxscale, hxmantissa⟩ := decimal?_seconds_exact h hplaces hlt
  have hcount : c.secondCount = c.minuteCount * 60 * 10 ^ c.fraction.length + x.mantissa := by
    rw [hxmantissa, secondCount, wholeSeconds, Nat.add_mul, Nat.add_assoc]
  have hfits : c.minuteCount * 60 < Decimal.mantissaLimit := by
    have hpow : 0 < 10 ^ c.fraction.length := Nat.pow_pos (by decide)
    have hle := Nat.le_mul_of_pos_right (c.minuteCount * 60) hpow
    omega
  obtain ⟨w, hw⟩ := Decimal.exists_make? false hfits (Nat.zero_le _)
  obtain ⟨hwneg, hwmantissa, hwscale⟩ := Decimal.make?_eq_some.mp hw
  have hsum : w.sum x = c.secondCount := by
    rw [Decimal.sum, Decimal.signed_of_nonneg hwneg, Decimal.signed_of_nonneg hxneg, hwscale,
      hxscale, hwmantissa, Nat.zero_max, Nat.sub_zero, Nat.sub_self, hcount]
    simp
  obtain ⟨d, hd, hvalue⟩ := Decimal.add?_exact (a := w) (b := x) (by rw [hsum]; exact hlt)
  refine ⟨d, ?_, ?_⟩
  · rw [totalSeconds?_eq h, Decimal.ofNat?, hw, hx, Option.bind_some, Option.bind_some, hd]
  · rw [hvalue, Decimal.fixedPoint_sum, hsum, hwscale, hxscale, Nat.zero_max]

/-- Months that fit have an opposite, so that the sign makes no difference to what is refused. -/
theorem toDuration?_eq (h : c.Numeric) (kind : DurationKind) :
    c.toDuration? kind =
      if c.monthCount ≤ 2 ^ 63 - 1 then
        c.totalSeconds?.map fun seconds =>
          ⟨c.sign * c.monthCount, if c.negative then seconds.neg else seconds, kind⟩
      else none := by
  have hsteps : c.toDuration? kind = c.totalMonths?.bind fun months =>
      c.totalSeconds?.bind fun seconds =>
        if c.negative then
          (Signed64.neg? months).bind fun months => some ⟨months, seconds.neg, kind⟩
        else some ⟨months, seconds, kind⟩ := rfl
  rw [hsteps, totalMonths?_eq h, Signed64.ofInt?_natCast]
  split
  · next hle =>
      rw [Option.bind_some, Signed64.neg?_natCast hle, sign]
      cases c.totalSeconds? with
      | none => rfl
      | some seconds => cases c.negative <;> simp
  · rfl

end Components

open Components
open Literal (Raises)

/-- The duration that the components write, without rounding. -/
structure Exact (c : Components) (kind : DurationKind) (v : Duration) : Prop where
  kind : v.kind = kind
  months : v.months = c.sign * c.monthCount
  seconds : v.seconds.fixedPoint
    = c.sign * (c.secondCount * 10 ^ (Decimal.maxScale - c.fraction.length))
  sameSign : (0 ≤ v.months ∧ 0 ≤ v.seconds.fixedPoint) ∨
    (v.months ≤ 0 ∧ v.seconds.fixedPoint ≤ 0)

theorem Part.holds {P : List Char → Prop} {unit : Char} {number : Option (List Char)}
    {cs : List Char} (h : Part P unit number cs) : ∀ cs ∈ number, P cs := by
  cases h with
  | absent =>
    intro cs hcs
    cases hcs
  | present hnumber =>
    rintro _ ⟨⟩
    exact hnumber

theorem Form.numeric {c : Components} {cs : List Char} (h : Form c cs) : c.Numeric := by
  obtain ⟨_, @⟨_, _, _, t, hy, hm, hd, ht⟩, rfl⟩ := h
  have htime : (∀ cs ∈ c.hours, Whole cs) ∧ (∀ cs ∈ c.minutes, Whole cs) ∧
      ∀ cs ∈ c.seconds, Pointed cs := by
    generalize c.hours = hours at ht ⊢
    generalize c.minutes = minutes at ht ⊢
    generalize c.seconds = seconds at ht ⊢
    cases ht with
    | absent => simp
    | present hh hn hx => exact ⟨hh.holds, hn.holds, hx.holds⟩
  exact ⟨hy.holds, hm.holds, hd.holds, htime.1, htime.2.1, htime.2.2⟩

theorem exact_toDuration? {c : Components} (h : c.Numeric) (hfits : c.Fits) (kind : DurationKind) :
    ∃ v, c.toDuration? kind = some v ∧ Exact c kind v := by
  obtain ⟨hplaces, hmonths, hcount⟩ := hfits
  obtain ⟨seconds, hseconds, hvalue⟩ := totalSeconds?_exact h hplaces hcount
  have hnonneg : 0 ≤ (c.secondCount * 10 ^ (Decimal.maxScale - c.fraction.length) : Int) :=
    Int.mul_nonneg (Int.natCast_nonneg _) (Int.pow_nonneg (by decide))
  have hsigned : (if c.negative then seconds.neg else seconds).fixedPoint
      = c.sign * (c.secondCount * 10 ^ (Decimal.maxScale - c.fraction.length)) := by
    rw [fixedPoint_sign, hvalue]
  rw [toDuration?_eq h, if_pos hmonths, hseconds, Option.map_some]
  refine ⟨_, rfl, rfl, rfl, hsigned, ?_⟩
  simp only [hsigned]
  exact sign_mul_sameSign c (Int.natCast_nonneg _) hnonneg

theorem toDuration?_eq_none {c : Components} (h : c.Numeric) (hwhole : c.fraction = [])
    (hfits : ¬c.Fits) (kind : DurationKind) : c.toDuration? kind = none := by
  rw [toDuration?_eq h]
  split
  · next hmonths =>
      have hcount : Decimal.mantissaLimit ≤ c.secondCount := by
        refine Nat.le_of_not_lt fun hlt => hfits ⟨?_, hmonths, hlt⟩
        rw [hwhole]
        exact Nat.zero_le _
      rw [totalSeconds?_whole h hwhole, Decimal.ofNat?_eq_none.mpr hcount]
      rfl
  · rfl

variable {s : String} {kind : DurationKind}

theorem parse_of_written {c : Components} (hwritten : Written c s.toList) (hkind : OfKind c kind) :
    parse s kind = match c.toDuration? kind with
      | some d => .ok d
      | none => .error (.durationOutOfRange kind.type s) := by
  rw [parse, ofChars?_eq_some.mpr hwritten]
  exact if_pos (allowed_iff.mpr hkind)

theorem raises_invalidForm :
    Raises (parse s kind) .invalidForm ↔ ¬∃ c, Written c s.toList ∧ OfKind c kind := by
  constructor
  · rintro ⟨fault, hfault, hcode⟩ ⟨c, hwritten, hkind⟩
    rw [parse_of_written hwritten hkind] at hfault
    split at hfault
    all_goals cases hfault
    cases hcode
  · intro h
    unfold parse
    split
    · exact ⟨_, rfl, rfl⟩
    · next c hc =>
        have hallowed : ¬c.allowed kind = true := fun hallowed =>
          h ⟨c, ofChars?_eq_some.mp hc, allowed_iff.mp hallowed⟩
        rw [if_neg hallowed]
        exact ⟨_, rfl, rfl⟩

/-- Exactly the texts that do not have the form of a duration of the kind are invalid. Those that
have the form and fit are read exactly; whole seconds that do not fit, or months, are out of
range. -/
theorem parse_exact (s : String) (kind : DurationKind) :
    (Raises (parse s kind) .invalidForm ↔ ¬∃ c, Written c s.toList ∧ OfKind c kind) ∧
    ∀ c, Written c s.toList → OfKind c kind →
      (c.Fits → ∃ v, parse s kind = .ok v ∧ Exact c kind v) ∧
      (c.fraction = [] → ¬c.Fits → Raises (parse s kind) .durationOverflow) := by
  refine ⟨raises_invalidForm, fun c hwritten hkind => ?_⟩
  rw [parse_of_written hwritten hkind]
  constructor
  · intro hfits
    obtain ⟨v, hv, hexact⟩ := exact_toDuration? hwritten.1.numeric hfits kind
    exact ⟨v, by rw [hv], hexact⟩
  · intro hwhole hfits
    rw [toDuration?_eq_none hwritten.1.numeric hwhole hfits]
    exact ⟨_, rfl, rfl⟩

/-- Both totals are read at their limits, with a minus and leading zeros; one second more, carried
by a minute, is out of range, and a `T` without a time is invalid. -/
theorem parse_exact_limits :
    (∃ v, parse "-P0768614336404564650Y7MT79228162514264337593543950335S" .duration = .ok v ∧
      v.months = -(2 ^ 63 - 1) ∧ v.seconds.fixedPoint = -((2 ^ 96 - 1) * 10 ^ 28)) ∧
    Raises (parse "PT1M79228162514264337593543950276.S" .dayTime) .durationOverflow ∧
    Raises (parse "P1YT" .duration) .invalidForm := by
  refine ⟨?_, ?_, ?_⟩
  · have hwritten : Written ⟨true, some "0768614336404564650".toList, some "7".toList, none, none,
        none, some "79228162514264337593543950335".toList⟩
        "-P0768614336404564650Y7MT79228162514264337593543950335S".toList :=
      ofChars?_eq_some.mp (by decide +kernel)
    obtain ⟨v, hv, hexact⟩ := ((parse_exact _ .duration).2 _ hwritten trivial).1
      ⟨by decide, by decide +kernel, by decide +kernel⟩
    refine ⟨v, hv, ?_, ?_⟩
    · rw [hexact.months]
      decide +kernel
    · rw [hexact.seconds]
      decide +kernel
  · have hwritten : Written ⟨false, none, none, none, none, some "1".toList,
        some "79228162514264337593543950276.".toList⟩
        "PT1M79228162514264337593543950276.S".toList :=
      ofChars?_eq_some.mp (by decide +kernel)
    refine ((parse_exact _ .dayTime).2 _ hwritten ⟨rfl, rfl⟩).2 (by decide +kernel) fun hfits => ?_
    exact absurd hfits.2.2 (by decide +kernel)
  · refine (parse_exact _ .duration).1.mpr ?_
    rintro ⟨c, hwritten, -⟩
    have hnone : ofChars? "P1YT".toList = none := by decide +kernel
    cases hnone.symm.trans (ofChars?_eq_some.mpr hwritten)

end Duration

end XQuery
