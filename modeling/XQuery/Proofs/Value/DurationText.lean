import XQuery.Proofs.Number.Printing
import XQuery.Proofs.Value.DurationForms
import XQuery.Proofs.Value.DurationOrder
import XQuery.Proofs.Value.DurationParts

/-!
# The canonical text of durations

The canonical text writes the parts of a duration that are not zero as its
components (`Duration.components`). Where the parts make up the seconds, these
components add up to the duration again, no matter how many places its seconds
were written with, so that the text is read as an equal duration
(`Duration.parse_text`). The text depends on the value alone
(`Duration.text_congr`), and stands for one value of its kind
(`Duration.parse_text_round_trip`).
-/

namespace XQuery

namespace Duration

open Components

variable {s : String} {kind : DurationKind} {v w : Duration} {c : Components}

/-! ## What reading yields -/

theorem decimal?_nonneg {number : Option (List Char)} (h : ∀ cs ∈ number, Pointed cs) {d : Decimal}
    (hd : decimal? number = some d) : d.negative = false := by
  rw [decimal?_eq h, Decimal.ofDigits?] at hd
  simp only at hd
  split at hd
  · obtain ⟨_, _, hmade⟩ := Option.bind_eq_some_iff.mp hd
    exact (Decimal.make?_eq_some.mp hmade).1
  · cases hd

theorem totalSeconds?_nonneg (h : c.Numeric) {d : Decimal} (hd : c.totalSeconds? = some d) :
    d.negative = false := by
  rw [totalSeconds?_eq h] at hd
  obtain ⟨whole, hwhole, hrest⟩ := Option.bind_eq_some_iff.mp hd
  obtain ⟨seconds, hseconds, hsum⟩ := Option.bind_eq_some_iff.mp hrest
  exact Decimal.add?_nonneg (Decimal.ofNat?_eq_some.mp hwhole).1
    (decimal?_nonneg h.seconds hseconds) hsum

theorem totalSeconds?_of_yearMonth (h : OfKind c .yearMonth) : c.totalSeconds? = some .zero := by
  obtain ⟨hdays, hhours, hminutes, hseconds⟩ := h
  rw [totalSeconds?, hdays, hhours, hminutes, hseconds]
  rfl

theorem monthCount_of_dayTime (h : OfKind c .dayTime) : c.monthCount = 0 := by
  obtain ⟨hyears, hmonths⟩ := h
  rw [monthCount, hyears, hmonths]
  rfl

/-- A duration of the kind as reading yields it. -/
structure Regular (kind : DurationKind) (v : Duration) : Prop where
  kind_eq : v.kind = kind
  months_le : v.months.natAbs ≤ 2 ^ 63 - 1
  sameSign : (0 ≤ v.months ∧ 0 ≤ v.seconds.fixedPoint) ∨
    (v.months ≤ 0 ∧ v.seconds.fixedPoint ≤ 0)
  no_seconds : kind = .yearMonth → v.seconds.isZero = true
  no_months : kind = .dayTime → v.months = 0

theorem regular_of_toDuration? (h : c.Numeric) (hkind : OfKind c kind)
    (hv : c.toDuration? kind = some v) : Regular kind v := by
  rw [toDuration?_eq h] at hv
  obtain ⟨hle, hv⟩ := Option.ite_none_right_eq_some.mp hv
  obtain ⟨seconds, hseconds, rfl⟩ := Option.map_eq_some_iff.mp hv
  have hnonneg := Decimal.fixedPoint_nonneg (totalSeconds?_nonneg h hseconds)
  have hzero : kind = .yearMonth → seconds.isZero = true := by
    rintro rfl
    rw [totalSeconds?_of_yearMonth hkind] at hseconds
    cases hseconds
    rfl
  have hnone : kind = .dayTime → c.monthCount = 0 := by
    rintro rfl
    exact monthCount_of_dayTime hkind
  refine ⟨rfl, ?_, ?_, ?_, ?_⟩
  · rw [natAbs_sign_mul, Int.natAbs_natCast]
    exact hle
  · rw [fixedPoint_sign]
    exact sign_mul_sameSign c (Int.natCast_nonneg _) hnonneg
  · intro hkind
    split
    · exact hzero hkind
    · exact hzero hkind
  · intro hkind
    rw [hnone hkind]
    exact Int.mul_zero _

theorem regular_of_parse (h : parse s kind = .ok v) : Regular kind v := by
  unfold parse at h
  split at h
  · cases h
  · next c hc =>
      split at h
      · next hallowed =>
          split at h
          · next d hd =>
              cases h
              exact regular_of_toDuration? (ofChars?_eq_some.mp hc).1.numeric
                (allowed_iff.mp hallowed) hd
          · cases h
      · cases h

/-! ## Equal durations have the same text -/

theorem abs_trunc {a b : Decimal} (h : a.abs = b.abs) : a.trunc.abs = b.trunc.abs := by
  show a.abs.trunc = b.abs.trunc
  rw [h]

/-- The parts that are written do not depend on the places of the seconds. -/
theorem parts_of_extends (h : v.seconds.Extends w.seconds) :
    v.days.abs = w.days.abs ∧ v.hours.abs = w.hours.abs ∧ v.minutes.abs = w.minutes.abs ∧
      v.secondsPart.abs.normalize = w.secondsPart.abs.normalize :=
  ⟨abs_trunc (h.divNat_abs 86400), abs_trunc ((h.modNat 86400).divNat_abs 3600),
    abs_trunc ((h.modNat 3600).divNat_abs 60), (h.modNat 60).normalize_abs⟩

theorem parts_congr (h : v.seconds.fixedPoint = w.seconds.fixedPoint) :
    v.days.abs = w.days.abs ∧ v.hours.abs = w.hours.abs ∧ v.minutes.abs = w.minutes.abs ∧
      v.secondsPart.abs.normalize = w.secondsPart.abs.normalize := by
  rcases Decimal.extends_total (congrArg Int.natAbs h) with hextends | hextends
  · exact parts_of_extends hextends
  · obtain ⟨hdays, hhours, hminutes, hseconds⟩ := parts_of_extends hextends
    exact ⟨hdays.symm, hhours.symm, hminutes.symm, hseconds.symm⟩

theorem isNegative_iff (v : Duration) :
    v.isNegative = true ↔ v.months < 0 ∨ v.seconds.fixedPoint < 0 := by
  rw [isNegative, Bool.or_eq_true, decide_eq_true_iff, Decimal.fixedPoint_neg_iff]

theorem text_congr (h : v.equal w = true) (hkind : v.kind = w.kind) : v.text = w.text := by
  obtain ⟨hmonths, hvalue⟩ := equal_iff.mp h
  obtain ⟨hdays, hhours, hminutes, hseconds⟩ := parts_congr hvalue
  have hzero : v.seconds.isZero = w.seconds.isZero := by
    rw [Bool.eq_iff_iff, Decimal.isZero_iff, Decimal.isZero_iff, hvalue]
  have hnegative : v.isNegative = w.isNegative := by
    rw [Bool.eq_iff_iff, isNegative_iff, isNegative_iff, hmonths, hvalue]
  simp only [text, years, monthsPart, hmonths, hzero, hkind, hdays, hhours, hminutes, hseconds,
    hnegative]

/-! ## The components of the text -/

/-- The digits of a component, which is left out if it is zero. -/
def shown (n : Nat) : Option (List Char) := if n = 0 then none else some (Digits.ofNat n)

/-- The text of the seconds, which are left out if they are zero. -/
def shownSeconds (d : Decimal) : Option (List Char) := if d.isZero then none else some d.text.toList

/-- The components that the canonical text writes. -/
def components (v : Duration) : Components where
  negative := v.isNegative
  years := shown v.years.natAbs
  months := shown v.monthsPart.natAbs
  days := shown v.days.mantissa
  hours := shown v.hours.mantissa
  minutes := shown v.minutes.mantissa
  seconds := shownSeconds v.secondsPart.abs.normalize

theorem part_shown (n : Nat) (unit : Char) {letter : String} (hletter : letter.toList = [unit]) :
    Part Whole unit (shown n) (written (toString n) (n == 0) letter).toList := by
  unfold shown written
  by_cases hzero : n = 0
  · simp only [hzero, beq_self_eq_true, if_true]
    exact .absent
  · simp only [hzero, beq_eq_false_iff_ne.mpr hzero, if_false, Bool.false_eq_true]
    rw [String.toList_append, hletter, Nat.toString_eq_ofList_toDigits, String.toList_ofList]
    exact .present (whole_iff.mpr ⟨Digits.ofNat_ne_nil n, Digits.allDigits_ofNat n⟩)

/-- A whole part is written like a number. -/
theorem part_trunc (d : Decimal) (unit : Char) {letter : String}
    (hletter : letter.toList = [unit]) :
    Part Whole unit (shown d.trunc.mantissa)
      (written d.trunc.abs.text d.trunc.abs.isZero letter).toList := by
  rw [Decimal.text_of_whole rfl rfl]
  exact part_shown d.trunc.mantissa unit hletter

/-- The text of a number without sign has the digits of the number around its point. -/
theorem text_spec {d : Decimal} (hnegative : d.negative = false) :
    Pointed d.text.toList ∧
      Decimal.pointParts d.text.toList = (d.wholeDigits, d.fractionDigits) := by
  have hne : d.wholeDigits ≠ [] := Digits.ofNat_ne_nil _
  by_cases hscale : d.scale = 0
  · have hwhole : d.wholeDigits = Digits.ofNat d.mantissa := by
      rw [Decimal.wholeDigits, hscale, Nat.pow_zero, Nat.div_one]
    have hfraction : d.fractionDigits = [] := if_pos hscale
    rw [Decimal.text_of_whole hnegative hscale, Nat.toString_eq_ofList_toDigits,
      String.toList_ofList, hfraction]
    rw [hwhole] at hne ⊢
    exact ⟨⟨_, .integer hne (Digits.allDigits_ofNat _)⟩,
      Decimal.pointParts_integer (Digits.allDigits_ofNat _)⟩
  · rw [Decimal.toList_text_of_scale hnegative hscale]
    exact ⟨⟨_, .decimal d.allDigits_wholeDigits d.allDigits_fractionDigits
      (List.append_ne_nil_of_left_ne_nil hne _)⟩,
      Decimal.pointParts_decimal d.allDigits_wholeDigits _⟩

theorem part_shownSeconds {d : Decimal} (hnegative : d.negative = false) :
    Part Pointed 'S' (shownSeconds d) (written d.text d.isZero "S").toList := by
  unfold shownSeconds written
  split
  · exact .absent
  · rw [String.toList_append]
    exact .present (text_spec hnegative).1

/-- The letter `T` is written in front of a time only. -/
theorem timePart_of_parts {hours minutes seconds : Option (List Char)} {h n x : List Char}
    (hh : Part Whole 'H' hours h) (hn : Part Whole 'M' minutes n)
    (hx : Part Pointed 'S' seconds x) :
    TimePart hours minutes seconds (if h ++ (n ++ x) = [] then [] else 'T' :: (h ++ (n ++ x))) := by
  split
  · next hempty =>
      simp only [List.append_eq_nil_iff] at hempty
      obtain ⟨rfl, rfl, rfl⟩ := hempty
      rw [hh.eq_none_iff.mpr rfl, hn.eq_none_iff.mpr rfl, hx.eq_none_iff.mpr rfl]
      exact .absent
  · exact .present hh hn hx

theorem toList_time (time : String) :
    (if time = "" then "" else "T" ++ time).toList
      = if time.toList = [] then [] else 'T' :: time.toList := by
  by_cases hempty : time = ""
  · simp [hempty]
  · simp [hempty]

/-- Where there is something to add up, there is a component. -/
theorem exists_component (h : ¬(c.monthCount = 0 ∧ c.secondCount = 0)) :
    c.years ≠ none ∨ c.months ≠ none ∨ c.days ≠ none ∨ c.hours ≠ none ∨ c.minutes ≠ none ∨
      c.seconds ≠ none := by
  by_contra hnone
  simp only [not_or, ne_eq, not_not] at hnone
  obtain ⟨hyears, hmonths, hdays, hhours, hminutes, hseconds⟩ := hnone
  refine h ⟨?_, ?_⟩
  · rw [monthCount, hyears, hmonths]
    rfl
  · rw [secondCount, wholeSeconds, minuteCount, fraction, hdays, hhours, hminutes, hseconds]
    rfl

/-- What is written without a `T` in front of nothing is complete as soon as it has a component. -/
theorem written_of_parts {y m d h n x : List Char} (hy : Part Whole 'Y' c.years y)
    (hm : Part Whole 'M' c.months m) (hd : Part Whole 'D' c.days d) (hh : Part Whole 'H' c.hours h)
    (hn : Part Whole 'M' c.minutes n) (hx : Part Pointed 'S' c.seconds x)
    (hsome : c.years ≠ none ∨ c.months ≠ none ∨ c.days ≠ none ∨ c.hours ≠ none ∨
      c.minutes ≠ none ∨ c.seconds ≠ none) :
    Written c (signText c.negative ++ 'P' ::
      (y ++ (m ++ (d ++ if h ++ (n ++ x) = [] then [] else 'T' :: (h ++ (n ++ x)))))) := by
  refine ⟨⟨_, .mk hy hm hd (timePart_of_parts hh hn hx), rfl⟩,
    Duration.complete_iff.mpr ⟨hsome, fun hT => ?_⟩⟩
  split at hT
  · simp only [List.mem_append, List.not_mem_nil, or_false] at hT
    rcases hT with hT | hT | hT
    · exact absurd hT (hy.T_not_mem T_not_mem_of_whole (by decide))
    · exact absurd hT (hm.T_not_mem T_not_mem_of_whole (by decide))
    · exact absurd hT (hd.T_not_mem T_not_mem_of_whole (by decide))
  · next hne =>
      rw [(TimePart.present hh hn hx).tail_spec.2] at hne
      simpa only [ne_eq, not_and_or] using hne

theorem written_text (hne : ¬(v.months = 0 ∧ v.seconds.isZero = true))
    (hcounts : ¬(v.components.monthCount = 0 ∧ v.components.secondCount = 0)) :
    Written v.components v.text.toList := by
  have hyears : Part Whole 'Y' v.components.years (written (toString v.years.natAbs)
      (v.years.natAbs == 0) "Y").toList := part_shown _ 'Y' rfl
  have hmonths : Part Whole 'M' v.components.months (written (toString v.monthsPart.natAbs)
      (v.monthsPart.natAbs == 0) "M").toList := part_shown _ 'M' rfl
  have hdays : Part Whole 'D' v.components.days
      (written v.days.abs.text v.days.abs.isZero "D").toList := part_trunc _ 'D' rfl
  have hhours : Part Whole 'H' v.components.hours
      (written v.hours.abs.text v.hours.abs.isZero "H").toList := part_trunc _ 'H' rfl
  have hminutes : Part Whole 'M' v.components.minutes
      (written v.minutes.abs.text v.minutes.abs.isZero "M").toList := part_trunc _ 'M' rfl
  have hseconds : Part Pointed 'S' v.components.seconds (written v.secondsPart.abs.normalize.text
      v.secondsPart.abs.normalize.isZero "S").toList := part_shownSeconds rfl
  have hwritten := written_of_parts hyears hmonths hdays hhours hminutes hseconds
    (exists_component hcounts)
  have hsign : (if v.isNegative = true then "-P" else "P").toList
      = signText v.components.negative ++ ['P'] := by
    show _ = signText v.isNegative ++ ['P']
    unfold signText
    split
    · rfl
    · rfl
  rw [text, if_neg hne]
  simp only [String.toList_append, toList_time, List.append_assoc, hsign]
  exact hwritten

/-! ## What the text adds up to -/

theorem value_shown (n : Nat) : value (shown n) = n := by
  unfold shown
  split
  · next hzero =>
      rw [hzero]
      rfl
  · exact Digits.value_ofNat n

theorem monthCount_components (v : Duration) : v.components.monthCount = v.months.natAbs := by
  show 12 * value (shown v.years.natAbs) + value (shown v.monthsPart.natAbs) = _
  rw [value_shown, value_shown, years, monthsPart, Int.natAbs_tdiv, Int.natAbs_tmod]
  exact Nat.div_add_mod v.months.natAbs 12

theorem parts_shownSeconds {d : Decimal} (hnegative : d.negative = false) :
    parts (shownSeconds d) = if d.isZero then ([], []) else (d.wholeDigits, d.fractionDigits) := by
  unfold shownSeconds
  split
  · rfl
  · exact (text_spec hnegative).2

theorem length_parts_shownSeconds {d : Decimal} (hnegative : d.negative = false)
    (hzero : d.isZero = true → d.scale = 0) : (parts (shownSeconds d)).2.length = d.scale := by
  rw [parts_shownSeconds hnegative]
  split
  · next h => exact (hzero h).symm
  · exact d.length_fractionDigits

theorem value_parts_shownSeconds {d : Decimal} (hnegative : d.negative = false) :
    Digits.value (parts (shownSeconds d)).1 * 10 ^ d.scale
      + Digits.value (parts (shownSeconds d)).2 = d.mantissa := by
  rw [parts_shownSeconds hnegative]
  split
  · next h =>
      rw [Decimal.isZero_iff_mantissa.mp h]
      exact Nat.zero_mul _
  · exact d.valueFrom_digits

/-- As no part has the opposite sign, their sizes make up the size of the seconds. -/
theorem natAbs_seconds (h : v.SumsUp) :
    v.seconds.fixedPoint.natAbs
      = 86400 * v.days.fixedPoint.natAbs + 3600 * v.hours.fixedPoint.natAbs
        + 60 * v.minutes.fixedPoint.natAbs + v.secondsPart.fixedPoint.natAbs := by
  obtain ⟨hdays, hhours, hminutes, hseconds⟩ := v.seconds_signs
  unfold SumsUp at h
  rcases Int.le_total 0 v.seconds.fixedPoint with htotal | htotal
  · replace hdays := hdays.1 htotal
    replace hhours := hhours.1 htotal
    replace hminutes := hminutes.1 htotal
    replace hseconds := hseconds.1 htotal
    omega
  · replace hdays := hdays.2 htotal
    replace hhours := hhours.2 htotal
    replace hminutes := hminutes.2 htotal
    replace hseconds := hseconds.2 htotal
    omega

/-- The seconds that make whole minutes. -/
def wholeMinutes (v : Duration) : Nat :=
  ((v.days.mantissa * 24 + v.hours.mantissa) * 60 + v.minutes.mantissa) * 60

theorem natAbs_seconds_eq (h : v.SumsUp) :
    v.seconds.fixedPoint.natAbs
      = v.wholeMinutes * 10 ^ Decimal.maxScale + v.secondsPart.fixedPoint.natAbs := by
  have hdays : v.days.fixedPoint.natAbs = v.days.mantissa * 10 ^ Decimal.maxScale :=
    Decimal.natAbs_fixedPoint _
  have hhours : v.hours.fixedPoint.natAbs = v.hours.mantissa * 10 ^ Decimal.maxScale :=
    Decimal.natAbs_fixedPoint _
  have hminutes : v.minutes.fixedPoint.natAbs = v.minutes.mantissa * 10 ^ Decimal.maxScale :=
    Decimal.natAbs_fixedPoint _
  rw [natAbs_seconds h, hdays, hhours, hminutes, wholeMinutes]
  ring

theorem length_fraction_components (v : Duration) :
    v.components.fraction.length = v.secondsPart.abs.normalize.scale := by
  refine length_parts_shownSeconds rfl fun hzero => Decimal.scale_normalize_of_isZero ?_
  rwa [Decimal.isZero_normalize] at hzero

theorem secondCount_eq (v : Duration) :
    v.components.secondCount = v.wholeMinutes * 10 ^ v.secondsPart.abs.normalize.scale
      + v.secondsPart.abs.normalize.mantissa := by
  have hminutes : v.components.wholeSeconds
      = v.wholeMinutes + Digits.value (parts v.components.seconds).1 := by
    show ((value (shown v.days.mantissa) * 24 + value (shown v.hours.mantissa)) * 60
      + value (shown v.minutes.mantissa)) * 60 + _ = _
    rw [value_shown, value_shown, value_shown, wholeMinutes]
  rw [secondCount, length_fraction_components, hminutes, Nat.add_mul, Nat.add_assoc]
  congr 1
  exact value_parts_shownSeconds rfl

theorem natAbs_normalize (d : Decimal) :
    d.abs.normalize.fixedPoint.natAbs = d.fixedPoint.natAbs := by
  rw [d.abs.extends_normalize.natAbs_eq, Decimal.natAbs_fixedPoint, Decimal.natAbs_fixedPoint]
  rfl

/-- The text adds up to the size of the seconds. -/
theorem secondCount_components (h : v.SumsUp) :
    v.components.secondCount * 10 ^ (Decimal.maxScale - v.components.fraction.length)
      = v.seconds.fixedPoint.natAbs := by
  have hscale : v.secondsPart.abs.normalize.scale ≤ Decimal.maxScale :=
    v.secondsPart.abs.normalize.scale_le
  rw [natAbs_seconds_eq h, secondCount_eq, length_fraction_components, ← natAbs_normalize,
    Decimal.natAbs_fixedPoint, Nat.add_mul, Nat.mul_assoc, ← Nat.pow_add,
    Nat.add_sub_cancel' hscale]

/-- The text has no more places than the seconds. -/
theorem secondCount_le (h : v.SumsUp) : v.components.secondCount ≤ v.seconds.mantissa := by
  have hplaces : v.components.fraction.length ≤ v.seconds.scale := by
    rw [length_fraction_components]
    exact (Decimal.stripZeros_le _ _).2
  have hpow : 10 ^ (Decimal.maxScale - v.seconds.scale)
      ≤ 10 ^ (Decimal.maxScale - v.components.fraction.length) :=
    Nat.pow_le_pow_right (by decide) (by omega)
  have hcount := secondCount_components h
  rw [Decimal.natAbs_fixedPoint] at hcount
  have hle : v.components.secondCount * 10 ^ (Decimal.maxScale - v.components.fraction.length)
      ≤ v.seconds.mantissa * 10 ^ (Decimal.maxScale - v.components.fraction.length) := by
    rw [hcount]
    exact Nat.mul_le_mul_left _ hpow
  exact Nat.le_of_mul_le_mul_right hle (Nat.pow_pos (by decide))

/-! ## Reading the text back -/

theorem fits_components (hregular : Regular kind v) (h : v.SumsUp) : v.components.Fits := by
  refine ⟨?_, ?_, ?_⟩
  · rw [length_fraction_components]
    exact v.secondsPart.abs.normalize.scale_le
  · rw [monthCount_components]
    exact hregular.months_le
  · exact Nat.lt_of_le_of_lt (secondCount_le h) v.seconds.mantissa_lt

theorem shown_of_fixedPoint {d : Decimal} (h : d.fixedPoint = 0) : shown d.mantissa = none := by
  rw [← Decimal.isZero_iff, Decimal.isZero, beq_iff_eq] at h
  exact if_pos h

theorem shownSeconds_of_fixedPoint {d : Decimal} (h : d.fixedPoint = 0) :
    shownSeconds d.abs.normalize = none := by
  have hnatAbs : d.abs.normalize.fixedPoint.natAbs = 0 := by
    rw [natAbs_normalize, h, Int.natAbs_zero]
  exact if_pos (Decimal.isZero_iff.mpr (Int.natAbs_eq_zero.mp hnatAbs))

theorem SameSign.eq_zero {total part : Int} (h : SameSign total part) (htotal : total = 0) :
    part = 0 := by
  unfold SameSign at h
  omega

/-- The text writes no component that the kind does not allow. -/
theorem ofKind_components (hregular : Regular kind v) : OfKind v.components kind := by
  cases kind with
  | duration => trivial
  | yearMonth =>
    have hzero := Decimal.isZero_iff.mp (hregular.no_seconds rfl)
    obtain ⟨hdays, hhours, hminutes, hseconds⟩ := v.seconds_signs
    exact ⟨shown_of_fixedPoint (hdays.eq_zero hzero), shown_of_fixedPoint (hhours.eq_zero hzero),
      shown_of_fixedPoint (hminutes.eq_zero hzero),
      shownSeconds_of_fixedPoint (hseconds.eq_zero hzero)⟩
  | dayTime =>
    have hzero := hregular.no_months rfl
    obtain ⟨hyears, hmonths⟩ := v.months_signs
    constructor
    · show shown v.years.natAbs = none
      rw [hyears.eq_zero hzero]
      rfl
    · show shown v.monthsPart.natAbs = none
      rw [hmonths.eq_zero hzero]
      rfl

/-- The sign of the text is the sign of both totals. -/
theorem sign_components (hregular : Regular kind v) :
    v.components.sign * v.months.natAbs = v.months ∧
      v.components.sign * v.seconds.fixedPoint.natAbs = v.seconds.fixedPoint := by
  have hsame := hregular.sameSign
  by_cases hnegative : v.isNegative = true
  · have hsign : v.components.sign = -1 := if_pos hnegative
    rw [isNegative_iff] at hnegative
    rw [hsign]
    omega
  · have hsign : v.components.sign = 1 := if_neg hnegative
    rw [isNegative_iff] at hnegative
    rw [hsign]
    omega

theorem parse_zero (kind : DurationKind) :
    ∃ w, parse (if kind = .yearMonth then "P0M" else "PT0S") kind = .ok w ∧ w.kind = kind ∧
      w.months = 0 ∧ w.seconds.fixedPoint = 0 := by
  cases kind
  all_goals exact ⟨_, rfl, rfl, rfl, rfl⟩

/-- The text of a duration whose parts make up its seconds is read as an equal duration. -/
theorem parse_text (hregular : Regular kind v) (h : v.SumsUp) :
    ∃ w, parse v.text kind = .ok w ∧ w.equal v = true ∧ w.kind = v.kind := by
  by_cases hzero : v.months = 0 ∧ v.seconds.isZero = true
  · obtain ⟨w, hw, hkind, hmonths, hseconds⟩ := parse_zero kind
    have htext : v.text = if kind = .yearMonth then "P0M" else "PT0S" := by
      rw [text, if_pos hzero, hregular.kind_eq]
    refine ⟨w, by rw [htext, hw], equal_iff.mpr ⟨?_, ?_⟩, by rw [hkind, hregular.kind_eq]⟩
    · rw [hmonths, hzero.1]
    · rw [hseconds, Decimal.isZero_iff.mp hzero.2]
  · have hcount := secondCount_components h
    have hcounts : ¬(v.components.monthCount = 0 ∧ v.components.secondCount = 0) := by
      rintro ⟨hmonthCount, hsecondCount⟩
      rw [monthCount_components, Int.natAbs_eq_zero] at hmonthCount
      rw [hsecondCount, Nat.zero_mul, eq_comm, Int.natAbs_eq_zero] at hcount
      exact hzero ⟨hmonthCount, Decimal.isZero_iff.mpr hcount⟩
    have hwritten := written_text hzero hcounts
    obtain ⟨w, hw, hexact⟩ :=
      exact_toDuration? hwritten.1.numeric (fits_components hregular h) kind
    obtain ⟨hmonths, hseconds⟩ := sign_components hregular
    refine ⟨w, ?_, equal_iff.mpr ⟨?_, ?_⟩, by rw [hexact.kind, hregular.kind_eq]⟩
    · rw [parse_of_written hwritten (ofKind_components hregular), hw]
    · rw [hexact.months, monthCount_components, hmonths]
    · rw [hexact.seconds, ← hseconds, ← hcount]
      push_cast
      rfl

theorem sumsUp_of_lt (h : v.seconds.mantissa < 2 ^ 64) : v.SumsUp := by
  have hmod : ∀ n, (v.seconds.modNat n).mantissa < 2 ^ 64 := fun n =>
    Nat.lt_of_le_of_lt (Nat.mod_le _ _) h
  rw [sumsUp_iff_carried, carried_eq_zero]
  exact ⟨Decimal.not_carries_of_lt (by decide) h,
    Decimal.not_carries_of_lt (by decide) (hmod 86400),
    Decimal.not_carries_of_lt (by decide) (hmod 3600)⟩

/-- The text of a duration that was read, and whose seconds have few digits, is read as an equal
duration, which has the same text. Two such durations of one kind have the same text exactly if
they are equal. -/
theorem parse_text_round_trip (h : parse s kind = .ok v) (hshort : v.seconds.mantissa < 2 ^ 64) :
    (∃ w, parse v.text kind = .ok w ∧ w.equal v = true ∧ w.text = v.text) ∧
    ∀ s' v', parse s' kind = .ok v' → v'.seconds.mantissa < 2 ^ 64 →
      (v.text = v'.text ↔ v.equal v' = true) := by
  have hregular := regular_of_parse h
  obtain ⟨w, hw, hequal, hkind⟩ := parse_text hregular (sumsUp_of_lt hshort)
  refine ⟨⟨w, hw, hequal, text_congr hequal hkind⟩, fun s' v' h' hshort' => ?_⟩
  have hregular' := regular_of_parse h'
  constructor
  · intro htext
    obtain ⟨w', hw', hequal', -⟩ := parse_text hregular' (sumsUp_of_lt hshort')
    rw [← htext, hw] at hw'
    cases hw'
    rw [equal_iff] at *
    exact ⟨hequal.1.symm.trans hequal'.1, hequal.2.symm.trans hequal'.2⟩
  · intro hequal'
    exact text_congr hequal' (by rw [hregular.kind_eq, hregular'.kind_eq])

/-- Months become years, hours become days and a trailing zero is dropped, so that two ways to write
one duration have one text. -/
theorem parse_text_round_trip_carried :
    ∃ v v', parse "-P14MT36H1.50S" .duration = .ok v ∧
      parse "-P14M1DT12H1.5S" .duration = .ok v' ∧
      v.text = "-P1Y2M1DT12H1.5S" ∧ v'.text = v.text ∧
      ∃ w, parse "-P1Y2M1DT12H1.5S" .duration = .ok w ∧ w.equal v = true := by
  let v : Duration := ⟨-14, ⟨true, 12960150, 2, by decide, by decide⟩, .duration⟩
  let v' : Duration := ⟨-14, ⟨true, 1296015, 1, by decide, by decide⟩, .duration⟩
  have hv : parse "-P14MT36H1.50S" .duration = .ok v := rfl
  have hv' : parse "-P14M1DT12H1.5S" .duration = .ok v' := rfl
  have htext : v.text = "-P1Y2M1DT12H1.5S" := by decide +kernel
  obtain ⟨⟨w, hw, hequal, -⟩, hsame⟩ := parse_text_round_trip hv (by decide)
  rw [htext] at hw
  refine ⟨v, v', hv, hv', htext, ?_, w, hw, hequal⟩
  exact ((hsame _ v' hv' (by decide)).mpr (by decide +kernel)).symm

end Duration

end XQuery
