import XQuery.Proofs.Lexer.Lookahead
import XQuery.Proofs.Lexer.Texts
import XQuery.Proofs.Text.Split
import XQuery.Value.Literal

/-!
# Numeric literals

The grammar of numbers, and that the lexer and the conversion of literals both
follow it. The lexer reads the longest number and gives the letter of an
exponent back in front of a name; the conversion cuts the text at its letter
and at its point and looks at the parts. A text is one numeric token exactly
if it is not refused as a literal of that form (`Literal.accepts_iff_token`).
-/

namespace XQuery

/-! ## The grammar of numbers -/

/-- Digits only, or nothing. -/
def AllDigits (cs : List Char) : Prop := ∀ c ∈ cs, c.isDigit = true

/-- A number without an exponent: digits, or a point with digits on at least one of its sides. -/
inductive Mantissa : Kind → List Char → Prop
  | integer {whole : List Char} : whole ≠ [] → AllDigits whole → Mantissa .integerLiteral whole
  | decimal {whole fraction : List Char} : AllDigits whole → AllDigits fraction →
      whole ++ fraction ≠ [] → Mantissa .decimalLiteral (whole ++ '.' :: fraction)

/-- The letter of an exponent. -/
def isExponentLetter (c : Char) : Bool := c == 'e' || c == 'E'

/-- At most one sign in front of digits. -/
inductive SignedDigits : List Char → Prop
  | mk {digits : List Char} (sign : List Char) : sign ∈ [[], ['+'], ['-']] → digits ≠ [] →
      AllDigits digits → SignedDigits (sign ++ digits)

/-- The texts of the three numeric tokens. -/
inductive Numeral : Kind → List Char → Prop
  | mantissa {k : Kind} {cs : List Char} : Mantissa k cs → Numeral k cs
  | double {k : Kind} {m power : List Char} {e : Char} : Mantissa k m → isExponentLetter e →
      SignedDigits power → Numeral .doubleLiteral (m ++ e :: power)

theorem AllDigits.nil : AllDigits [] := nofun

theorem AllDigits.cons {c : Char} {cs : List Char} (hc : c.isDigit = true) (h : AllDigits cs) :
    AllDigits (c :: cs) := List.forall_mem_cons.mpr ⟨hc, h⟩

theorem Digits.isDigits_iff {cs : List Char} :
    Digits.isDigits cs = true ↔ cs ≠ [] ∧ AllDigits cs := by
  simp [Digits.isDigits, AllDigits]

/-- The text does not start with a digit. -/
def Stops (cs : List Char) : Prop := ∀ c ∈ cs.head?, c.isDigit = false

theorem Stops.nil : Stops [] := nofun

theorem Stops.cons {c : Char} (hc : c.isDigit = false) (cs : List Char) : Stops (c :: cs) := by
  rintro _ ⟨⟩
  exact hc

/-- Every text starts with all the digits it has in front. -/
theorem exists_digits (cs : List Char) :
    ∃ digits rest, cs = digits ++ rest ∧ AllDigits digits ∧ Stops rest :=
  Text.exists_run Char.isDigit cs

/-- What may stand behind the longest number without an exponent. -/
def Ends : Kind → List Char → Prop
  | .integerLiteral, rest => Stops rest ∧ rest.head? ≠ some '.'
  | _, rest => Stops rest

theorem Ends.nil (k : Kind) : Ends k [] := by
  unfold Ends
  split
  · exact ⟨.nil, nofun⟩
  · exact .nil

theorem Ends.exponent (k : Kind) {e : Char} (he : isExponentLetter e) (power : List Char) :
    Ends k (e :: power) := by
  have hletter : e = 'e' ∨ e = 'E' := by simpa [isExponentLetter] using he
  have hstops : Stops (e :: power) := .cons (by rcases hletter with rfl | rfl <;> decide) power
  unfold Ends
  split
  · refine ⟨hstops, ?_⟩
    rcases hletter with rfl | rfl <;> exact nofun
  · exact hstops

/-- A text that starts like a number starts with a longest one. -/
theorem exists_mantissa {cs : List Char} {d : Char} (hd : d.isDigit = true) {tail : List Char}
    (hcs : cs = d :: tail ∨ cs = '.' :: d :: tail) :
    ∃ k m rest, cs = m ++ rest ∧ Mantissa k m ∧ Ends k rest := by
  obtain ⟨digits, rest, rfl, hdigits, hrest⟩ := exists_digits tail
  have hdigits := hdigits.cons hd
  rcases hcs with rfl | rfl
  · by_cases hpoint : rest.head? = some '.'
    · obtain ⟨after, rfl⟩ := List.head?_eq_some_iff.mp hpoint
      obtain ⟨fraction, rest, rfl, hfraction, hrest⟩ := exists_digits after
      refine ⟨.decimalLiteral, (d :: digits) ++ '.' :: fraction, rest, by simp, ?_, hrest⟩
      exact .decimal hdigits hfraction (by simp)
    · exact ⟨.integerLiteral, d :: digits, rest, rfl, .integer (by simp) hdigits, hrest, hpoint⟩
  · exact ⟨.decimalLiteral, [] ++ '.' :: d :: digits, rest, rfl,
      .decimal .nil hdigits (by simp), hrest⟩

/-! ## Characters of numbers -/

theorem isDigit_toNat (c : Char) : CharClass.isDigit c.toNat = c.isDigit := by
  simp only [CharClass.isDigit, Char.isDigit, Char.toNat, UInt32.le_iff_toNat_le, ge_iff_le]
  rfl

theorem punctuation_ne_digit (n : CodePoint) : CharClass.punctuation n ≠ .digit := by
  unfold CharClass.punctuation
  split <;> exact nofun

theorem of_eq_digit {c : Char} : CharClass.of c.toNat = .digit ↔ c.isDigit = true := by
  rw [← isDigit_toNat]
  generalize c.toNat = n
  constructor
  · intro h
    rcases of_cases n with ⟨hdigit, _⟩ | hclass | hclass
    · exact hdigit
    · rw [h] at hclass
      simp at hclass
    · exact absurd (hclass.symm.trans h) (punctuation_ne_digit n)
  · intro hdigit
    have hblank : CharClass.isBlank n = false := by
      refine Bool.eq_false_iff.mpr fun hblank => ?_
      simp only [CharClass.isBlank, Bool.or_eq_true, beq_iff_eq] at hblank
      rcases hblank with ((rfl | rfl) | rfl) | rfl
      all_goals cases hdigit
    simp [CharClass.of, hblank, hdigit]

namespace Expression

/-! ## Reading a number -/

/-- All digits in front of a text that goes on without one are counted. -/
theorem digits_run {ds rest : List Char} (hds : AllDigits ds) (hrest : Stops rest) :
    digits ((ds ++ rest).map Char.toNat) = ds.length := by
  have hclass : ∀ c : Char, (CharClass.of c.toNat == .digit) = c.isDigit := by
    intro c
    rw [Bool.eq_iff_iff, beq_iff_eq, of_eq_digit]
  refine count_run ?_ ?_
  · intro c hc
    rw [hclass, hds c hc]
  · intro c hc
    rw [hclass, hrest c hc]

theorem allDigits_of_digits_eq {cs : List Char} (h : digits (cs.map Char.toNat) = cs.length) :
    AllDigits cs := by
  obtain ⟨ds, rest, rfl, hds, hrest⟩ := exists_digits cs
  rw [digits_run hds hrest, List.length_append] at h
  have hnil : rest = [] := List.eq_nil_of_length_eq_zero (by omega)
  rw [hnil, List.append_nil]
  exact hds

theorem exists_sign (cs : List Char) :
    ∃ signs rest, cs = signs ++ rest ∧ signs ∈ [[], ['+'], ['-']] ∧
      sign (cs.map Char.toNat) = signs.length := by
  simp only [sign, next_map]
  by_cases hplus : cs.head? = some '+'
  · obtain ⟨rest, rfl⟩ := List.head?_eq_some_iff.mp hplus
    exact ⟨['+'], rest, rfl, by simp, rfl⟩
  · by_cases hminus : cs.head? = some '-'
    · obtain ⟨rest, rfl⟩ := List.head?_eq_some_iff.mp hminus
      exact ⟨['-'], rest, rfl, by simp, rfl⟩
    · exact ⟨[], cs, rfl, by simp, by simp [hplus, hminus]⟩

theorem sign_append {signs digits : List Char} (hsigns : signs ∈ [[], ['+'], ['-']])
    (hne : digits ≠ []) (hdigits : AllDigits digits) :
    sign ((signs ++ digits).map Char.toNat) = signs.length := by
  obtain ⟨d, digits, rfl⟩ := List.exists_cons_of_ne_nil hne
  have hplus : d ≠ '+' := by
    rintro rfl
    exact absurd (hdigits '+' List.mem_cons_self) (by decide)
  have hminus : d ≠ '-' := by
    rintro rfl
    exact absurd (hdigits '-' List.mem_cons_self) (by decide)
  simp only [List.mem_cons, List.not_mem_nil, or_false] at hsigns
  simp only [sign, next_map]
  rcases hsigns with rfl | rfl | rfl
  · simp [hplus, hminus]
  · rfl
  · rfl

/-- What is read behind the letter of an exponent and its sign. -/
theorem exponent_letter (kind : Kind) (n : Nat) {e : Char} (he : isExponentLetter e)
    {signs tail : List Char} (hsign : sign ((signs ++ tail).map Char.toNat) = signs.length) :
    exponent kind n ((e :: (signs ++ tail)).map Char.toNat) = match tail with
      | [] => .token .partialDoubleLiteralExponent (n + 1 + signs.length)
      | d :: ds => match CharClass.of d.toNat with
        | .digit => .token .doubleLiteral
            (n + 1 + signs.length + (1 + digits (ds.map Char.toNat)))
        | .nameStartChar => .token kind n
        | _ => .token .partialDoubleLiteralExponent (n + 1 + signs.length) := by
  have hletter : (e.toNat == 'e'.toNat || e.toNat == 'E'.toNat) = true := by
    rw [toNat_beq, toNat_beq]
    exact he
  rw [List.map_cons, exponent, if_pos hletter]
  simp only [hsign, drop_map_append]
  cases tail with
  | nil => rfl
  | cons d ds => rfl

theorem exponent_other (kind : Kind) (n : Nat) {c : Char} (hc : ¬isExponentLetter c)
    (cs : List Char) : exponent kind n ((c :: cs).map Char.toNat) = .token kind n := by
  have hletter : ¬(c.toNat == 'e'.toNat || c.toNat == 'E'.toNat) = true := by
    rw [toNat_beq, toNat_beq]
    exact hc
  rw [List.map_cons, exponent, if_neg hletter]

/-- A number takes all of the text: there is no exponent, or a complete one. -/
theorem exponent_spans {kind k : Kind} {n : Nat} {rest : List Char}
    (h : (exponent kind n (rest.map Char.toNat)).kind = some k)
    (hlength : (exponent kind n (rest.map Char.toNat)).length = n + rest.length)
    (hk : k ≠ .partialDoubleLiteralExponent) :
    (k = kind ∧ rest = []) ∨ (k = .doubleLiteral ∧
      ∃ e power, isExponentLetter e ∧ SignedDigits power ∧ rest = e :: power) := by
  cases rest with
  | nil =>
    cases h
    exact .inl ⟨rfl, rfl⟩
  | cons c cs =>
    by_cases hc : isExponentLetter c
    · obtain ⟨signs, tail, rfl, hsigns, hsign⟩ := exists_sign cs
      rw [exponent_letter kind n hc hsign] at h hlength
      cases tail with
      | nil =>
        cases h
        exact absurd rfl hk
      | cons d ds =>
        simp only at h hlength
        split at h
        · next hd =>
            cases h
            rw [hd] at hlength
            simp only [Step.token_length, List.length_cons, List.length_append] at hlength
            have hdigits := allDigits_of_digits_eq (show _ = ds.length by omega)
            exact .inr ⟨rfl, c, signs ++ d :: ds, hc,
              .mk signs hsigns (by simp) (hdigits.cons (of_eq_digit.mp hd)), rfl⟩
        · next hd =>
            -- a name follows, and the number ends in front of the letter
            rw [hd] at hlength
            simp only [Step.token_length, List.length_cons] at hlength
            omega
        · cases h
          exact absurd rfl hk
    · rw [exponent_other kind n hc, Step.token_length, List.length_cons] at hlength
      omega

theorem exponent_double {kind : Kind} (n : Nat) {e : Char} (he : isExponentLetter e)
    {power : List Char} (hpower : SignedDigits power) :
    exponent kind n ((e :: power).map Char.toNat)
      = .token .doubleLiteral (n + (1 + power.length)) := by
  cases hpower with
  | @mk digits signs hsigns hne hdigits =>
    obtain ⟨d, ds, rfl⟩ := List.exists_cons_of_ne_nil hne
    have hd := of_eq_digit.mpr (hdigits d List.mem_cons_self)
    have hds : AllDigits ds := fun c hc => hdigits c (List.mem_cons_of_mem d hc)
    have hcount := digits_run hds Stops.nil
    rw [List.append_nil] at hcount
    rw [exponent_letter kind n he (sign_append hsigns hne hdigits)]
    simp only [hd, hcount, List.length_append, List.length_cons]
    congr 1
    omega

theorem number_integer {digits rest : List Char} (hdigits : AllDigits digits)
    (hrest : Ends .integerLiteral rest) :
    number ((digits ++ rest).map Char.toNat)
      = exponent .integerLiteral (1 + digits.length) (rest.map Char.toNat) := by
  simp only [number, digits_run hdigits hrest.1, drop_map_append]
  cases rest with
  | nil => rfl
  | cons c rest =>
    have hpoint : ¬(c.toNat == '.'.toNat) = true := by
      rw [toNat_beq]
      simpa using hrest.2
    rw [List.map_cons]
    simp only
    rw [if_neg hpoint]

theorem number_decimal {digits fraction rest : List Char} (hdigits : AllDigits digits)
    (hfraction : AllDigits fraction) (hrest : Stops rest) :
    number ((digits ++ '.' :: (fraction ++ rest)).map Char.toNat)
      = exponent .decimalLiteral (1 + digits.length + 1 + fraction.length)
          (rest.map Char.toNat) := by
  have hpoint : Stops ('.' :: (fraction ++ rest)) := .cons (by decide) _
  simp only [number, digits_run hdigits hpoint, drop_map_append]
  rw [List.map_cons]
  simp only [digits_run hfraction hrest, drop_map_append]
  rfl

theorem dot_decimal {fraction rest : List Char} (hfraction : AllDigits fraction)
    (hne : fraction ≠ []) (hrest : Stops rest) :
    dot ((fraction ++ rest).map Char.toNat)
      = exponent .decimalLiteral (1 + fraction.length) (rest.map Char.toNat) := by
  have hnext : ¬next '.' ((fraction ++ rest).map Char.toNat) = true := by
    obtain ⟨d, ds, rfl⟩ := List.exists_cons_of_ne_nil hne
    have hd := hfraction d List.mem_cons_self
    rw [next_map]
    rintro hpoint
    cases eq_of_beq hpoint
    cases hd
  have hzero : ¬fraction.length = 0 := mt List.eq_nil_of_length_eq_zero hne
  rw [dot_eq, if_neg hnext, digits_run hfraction hrest, if_neg hzero, drop_map_append]

/-- The longest number without an exponent is read before the exponent is looked for. -/
theorem plain_mantissa {k : Kind} {m rest : List Char} (hm : Mantissa k m) (hrest : Ends k rest) :
    plain ((m ++ rest).map Char.toNat) = exponent k m.length (rest.map Char.toNat) := by
  have hnumber : ∀ {d : Char} {tail : List Char}, d.isDigit = true →
      plain ((d :: tail).map Char.toNat) = number (tail.map Char.toNat) := by
    intro d tail hd
    simp only [List.map_cons, plain, of_eq_digit.mpr hd]
  cases hm with
  | integer hne hdigits =>
    obtain ⟨d, digits, rfl⟩ := List.exists_cons_of_ne_nil hne
    obtain ⟨hd, hdigits⟩ := List.forall_mem_cons.mp hdigits
    rw [List.cons_append, hnumber hd, number_integer hdigits hrest, List.length_cons,
      Nat.add_comm]
  | @decimal whole fraction hwhole hfraction hne =>
    cases whole with
    | nil =>
      show dot ((fraction ++ rest).map Char.toNat) = _
      rw [dot_decimal hfraction hne hrest, List.nil_append, List.length_cons, Nat.add_comm]
    | cons d digits =>
      obtain ⟨hd, hdigits⟩ := List.forall_mem_cons.mp hwhole
      have hlength : (d :: digits ++ '.' :: fraction).length
          = 1 + digits.length + 1 + fraction.length := by
        simp only [List.length_append, List.length_cons]
        omega
      rw [List.append_assoc, List.cons_append, hnumber hd, List.cons_append,
        number_decimal hdigits hfraction hrest, hlength]

end Expression

/-- The kinds of the numeric tokens. -/
def Kind.isNumeric : Kind → Bool
  | integerLiteral | decimalLiteral | doubleLiteral => true
  | _ => false

namespace Expression

theorem name_not_numeric {k : Kind} {c : CodePoint} {cs : List CodePoint}
    (h : (name c cs).kind = some k) : ¬k.isNumeric := by
  unfold name at h
  split at h
  · cases h
    exact nofun
  · simp only [Step.token_kind, Option.some.injEq] at h
    subst h
    unfold nameKind
    split
    · exact nofun
    · exact nofun

theorem parenthesis_not_numeric {k : Kind} {cs : List CodePoint}
    (h : (parenthesis cs).kind = some k) : ¬k.isNumeric := by
  rcases parenthesis_kinds h with rfl | rfl | rfl <;> exact nofun

/-- A numeric token starts with a digit, or with a point and a digit. -/
theorem starts_of_numeric {k : Kind} (hk : k.isNumeric) {cs : List Char}
    (h : (plain (cs.map Char.toNat)).kind = some k) :
    ∃ d tail, d.isDigit = true ∧ (cs = d :: tail ∨ cs = '.' :: d :: tail) := by
  cases cs with
  | nil => cases h
  | cons c cs =>
    simp only [List.map_cons, plain] at h
    cases hc : CharClass.of c.toNat with
    | digit => exact ⟨c, cs, of_eq_digit.mp hc, .inl rfl⟩
    | dot =>
      obtain ⟨digits, rest, rfl, hdigits, hrest⟩ := exists_digits cs
      rw [hc, dot_eq, digits_run hdigits hrest] at h
      cases digits with
      | nil =>
        simp only [List.length_nil, if_true] at h
        split at h
        all_goals
          cases h
          cases hk
      | cons d digits =>
        rw [eq_of_class '.' hc (by decide) (by decide)]
        exact ⟨d, digits ++ rest, hdigits d List.mem_cons_self, .inr rfl⟩
    | nameStartChar => rw [hc] at h; exact absurd hk (name_not_numeric h)
    | parenthesisOpen => rw [hc] at h; exact absurd hk (parenthesis_not_numeric h)
    | colon | hash | exclamationMark | equal | lessThan | greaterThan | verticalBar
    | forwardSlash =>
      rw [hc] at h
      exact absurd hk (operator_kind (P := fun k => ¬k.isNumeric) (by decide) (by decide) h)
    | endOfBuffer => rw [hc] at h; cases h
    | _ =>
      rw [hc] at h
      cases h
      cases hk

/-- The lexer reads a text as a single numeric token exactly if it is in the grammar. -/
theorem plain_numeral {k : Kind} (hk : k.isNumeric) {cs : List Char} :
    ((plain (cs.map Char.toNat)).kind = some k ∧
        (plain (cs.map Char.toNat)).length = cs.length) ↔ Numeral k cs := by
  constructor
  · rintro ⟨hkind, hlength⟩
    obtain ⟨d, tail, hd, hcs⟩ := starts_of_numeric hk hkind
    obtain ⟨kind, m, rest, rfl, hm, hrest⟩ := exists_mantissa hd hcs
    rw [plain_mantissa hm hrest] at hkind hlength
    rw [List.length_append] at hlength
    have hpartial : k ≠ .partialDoubleLiteralExponent := by
      rintro rfl
      cases hk
    rcases exponent_spans hkind hlength hpartial with ⟨rfl, rfl⟩ | ⟨rfl, e, power, he, hpower, rfl⟩
    · rw [List.append_nil]
      exact .mantissa hm
    · exact .double hm he hpower
  · intro h
    cases h with
    | mantissa hm =>
      have hplain := plain_mantissa hm (Ends.nil k)
      rw [List.append_nil] at hplain
      rw [hplain]
      exact ⟨rfl, rfl⟩
    | @double kind m power e hm he hpower =>
      rw [plain_mantissa hm (Ends.exponent kind he power), exponent_double _ he hpower]
      refine ⟨rfl, ?_⟩
      simp only [Step.token_length, List.length_append, List.length_cons]
      omega

theorem kinds_numeral {k : Kind} (hk : k.isNumeric) (s : String) :
    kinds s = [k] ↔ Numeral k s.toList :=
  kinds_eq_singleton.trans (plain_numeral hk)

-- the letter is given back to a name, and kept where neither a name nor digits follow
example : kinds "1ex" = [.integerLiteral, .ncName] ∧
    kinds "1e+" = [.partialDoubleLiteralExponent] := by decide +kernel

end Expression

/-! ## Converting a literal -/

namespace Literal

/-- The condition on the digits around the point of a literal. -/
theorem decimalDigits?_parts {cs whole fraction : List Char}
    (h : (Text.splitAtFirst? (· == '.') cs).getD (cs, []) = (whole, fraction)) :
    (decimalDigits? cs).isSome ↔
      AllDigits whole ∧ AllDigits fraction ∧ whole ++ fraction ≠ [] := by
  have hvalid : ∀ part : List Char,
      (part.isEmpty || Digits.isDigits part) = true ↔ AllDigits part := by
    intro part
    cases part with
    | nil => simp [AllDigits]
    | cons c part => simp [Digits.isDigits, AllDigits]
  have hempty : (!(whole.isEmpty && fraction.isEmpty)) = true ↔ whole ++ fraction ≠ [] := by
    cases whole <;> simp
  simp only [decimalDigits?, h, Option.isSome_ite, Bool.and_eq_true, hvalid, hempty, and_assoc]

theorem not_point_of_allDigits {cs : List Char} (h : AllDigits cs) :
    ∀ c ∈ cs, (c == '.') = false := by
  intro c hc
  have hdigit := h c hc
  simp only [beq_eq_false_iff_ne]
  rintro rfl
  cases hdigit

theorem decimalDigits?_isSome {cs : List Char} :
    (decimalDigits? cs).isSome ↔ ∃ k, Mantissa k cs := by
  constructor
  · intro h
    cases hsplit : Text.splitAtFirst? (· == '.') cs with
    | none =>
      have hparts : (Text.splitAtFirst? (· == '.') cs).getD (cs, []) = (cs, []) := by
        rw [hsplit]
        rfl
      obtain ⟨hwhole, _, hne⟩ := (decimalDigits?_parts hparts).mp h
      exact ⟨_, .integer (by simpa using hne) hwhole⟩
    | some parts =>
      have hparts : (Text.splitAtFirst? (· == '.') cs).getD (cs, []) = (parts.1, parts.2) := by
        rw [hsplit]
        rfl
      obtain ⟨c, hc, _, rfl⟩ := Text.splitAtFirst?_eq_some.mp hsplit
      cases eq_of_beq hc
      obtain ⟨hwhole, hfraction, hne⟩ := (decimalDigits?_parts hparts).mp h
      exact ⟨_, .decimal hwhole hfraction hne⟩
  · rintro ⟨k, hm⟩
    cases hm with
    | integer hne hdigits =>
      have hsplit := Text.splitAtFirst?_eq_none.mpr (not_point_of_allDigits hdigits)
      refine (decimalDigits?_parts (by rw [hsplit]; rfl)).mpr ⟨hdigits, .nil, ?_⟩
      simpa using hne
    | @decimal whole fraction hwhole hfraction hne =>
      have hsplit : Text.splitAtFirst? (· == '.') (whole ++ '.' :: fraction)
          = some (whole, fraction) :=
        Text.splitAtFirst?_eq_some.mpr ⟨'.', rfl, not_point_of_allDigits hwhole, rfl⟩
      exact (decimalDigits?_parts (by rw [hsplit]; rfl)).mpr ⟨hwhole, hfraction, hne⟩

theorem exponent?_isSome {cs : List Char} : (exponent? cs).isSome ↔ SignedDigits cs := by
  constructor
  · intro h
    unfold exponent? at h
    simp only [Option.isSome_ite, Digits.isDigits_iff] at h
    split at h
    · exact .mk ['+'] (by simp) h.1 h.2
    · exact .mk ['-'] (by simp) h.1 h.2
    · exact .mk [] (by simp) h.1 h.2
  · intro h
    cases h with
    | @mk digits sign hsign hne hdigits =>
      have hvalid := Digits.isDigits_iff.mpr ⟨hne, hdigits⟩
      simp only [List.mem_cons, List.not_mem_nil, or_false] at hsign
      rcases hsign with rfl | rfl | rfl
      · unfold exponent?
        rw [List.nil_append]
        simp only [Option.isSome_ite]
        split
        · cases hdigits '+' List.mem_cons_self
        · cases hdigits '-' List.mem_cons_self
        · exact hvalid
      · simp [exponent?, hvalid]
      · simp [exponent?, hvalid]

theorem not_exponentLetter_of_mantissa {k : Kind} {m : List Char} (h : Mantissa k m) :
    ∀ c ∈ m, isExponentLetter c = false := by
  have hdigit : ∀ {c : Char}, c.isDigit = true → isExponentLetter c = false := by
    intro c hc
    refine Bool.eq_false_iff.mpr fun hletter => ?_
    simp only [isExponentLetter, Bool.or_eq_true, beq_iff_eq] at hletter
    rcases hletter with rfl | rfl
    all_goals cases hc
  intro c hc
  cases h with
  | integer _ hdigits => exact hdigit (hdigits c hc)
  | decimal hwhole hfraction =>
    rcases List.mem_append.mp hc with hc | hc
    · exact hdigit (hwhole c hc)
    · rcases List.mem_cons.mp hc with rfl | hc
      · rfl
      · exact hdigit (hfraction c hc)

/-- What is required of the two sides of the letter. -/
theorem doubleParts?_split {cs m power : List Char}
    (h : Text.splitAtFirst? isExponentLetter cs = some (m, power)) :
    (doubleParts? cs).isSome ↔ (∃ k, Mantissa k m) ∧ SignedDigits power := by
  have hparts : doubleParts? cs = (exponent? power).bind fun exponent =>
      (decimalDigits? m).bind fun parts => some (parts.1, parts.2, exponent) := by
    show Option.bind (Text.splitAtFirst? isExponentLetter cs) _ = _
    rw [h]
    rfl
  rw [hparts, ← decimalDigits?_isSome, ← exponent?_isSome]
  cases exponent? power with
  | none => simp
  | some exponent =>
    cases decimalDigits? m with
    | none => simp
    | some parts => simp

theorem doubleParts?_isSome {cs : List Char} :
    (doubleParts? cs).isSome ↔ Numeral .doubleLiteral cs := by
  constructor
  · intro h
    cases hsplit : Text.splitAtFirst? isExponentLetter cs with
    | none =>
      have hnone : doubleParts? cs = none := by
        show Option.bind (Text.splitAtFirst? isExponentLetter cs) _ = _
        rw [hsplit]
        rfl
      rw [hnone] at h
      cases h
    | some parts =>
      obtain ⟨⟨k, hm⟩, hpower⟩ := (doubleParts?_split hsplit).mp h
      obtain ⟨e, he, _, rfl⟩ := Text.splitAtFirst?_eq_some.mp hsplit
      exact .double hm he hpower
  · intro h
    cases h with
    | mantissa hm => cases hm
    | @double k m power e hm he hpower =>
      have hsplit : Text.splitAtFirst? isExponentLetter (m ++ e :: power) = some (m, power) :=
        Text.splitAtFirst?_eq_some.mpr ⟨e, he, not_exponentLetter_of_mantissa hm, rfl⟩
      exact (doubleParts?_split hsplit).mpr ⟨⟨k, hm⟩, hpower⟩

theorem numeral_integer {cs : List Char} :
    Numeral .integerLiteral cs ↔ Digits.isDigits cs = true := by
  rw [Digits.isDigits_iff]
  constructor
  · intro h
    cases h with
    | mantissa hm =>
      cases hm with
      | integer hne hdigits => exact ⟨hne, hdigits⟩
  · rintro ⟨hne, hdigits⟩
    exact .mantissa (.integer hne hdigits)

/-- Of the two forms without an exponent the decimal one has the point. -/
theorem numeral_decimal {cs : List Char} :
    Numeral .decimalLiteral cs ↔ '.' ∈ cs ∧ (decimalDigits? cs).isSome := by
  rw [decimalDigits?_isSome]
  constructor
  · intro h
    cases h with
    | mantissa hm =>
      refine ⟨?_, _, hm⟩
      cases hm with
      | decimal => simp
  · rintro ⟨hpoint, k, hm⟩
    cases hm with
    | integer _ hdigits => cases hdigits '.' hpoint
    | decimal hwhole hfraction hne => exact .mantissa (.decimal hwhole hfraction hne)

/-- The conversion fails with an error of the code. -/
def Raises {α : Type} (result : Except Fault α) (code : ErrorCode) : Prop :=
  ∃ fault, result = .error fault ∧ fault.code = code

variable {s : String}

theorem integer_form : ¬Raises (integer s) .invalidForm ↔ Digits.isDigits s.toList = true := by
  unfold integer Raises
  split
  · next hdigits =>
      simp only [hdigits, iff_true]
      split <;> simp [Fault.code]
  · next hdigits => simp [hdigits, Fault.code]

theorem decimal_form : ¬Raises (decimal s) .invalidForm ↔ (decimalDigits? s.toList).isSome := by
  unfold decimal Raises
  split
  · next hnone => simp [hnone, Fault.code]
  · next whole fraction hsome =>
      simp only [hsome, Option.isSome_some, iff_true]
      split <;> simp [Fault.code]

theorem double_form : ¬Raises (double s) .invalidForm ↔ (doubleParts? s.toList).isSome := by
  unfold double Raises
  split
  · next hnone => simp [hnone, Fault.code]
  · next whole fraction exponent hsome =>
      simp only [hsome, Option.isSome_some, iff_true]
      split <;> simp [Fault.code]

theorem value_eq_ofDigitChars (cs : List Char) :
    Digits.value cs = Nat.ofDigitChars 10 cs 0 := by
  have hstep : (fun n c => n * 10 + Digits.digit c)
      = fun n (c : Char) => 10 * n + (c.toNat - '0'.toNat) := by
    funext n c
    rw [Nat.mul_comm, Digits.digit]
  rw [Digits.value, Digits.valueFrom, Nat.ofDigitChars_eq_foldl, hstep]

theorem integer_value (h : Digits.isDigits s.toList = true) :
    if Nat.ofDigitChars 10 s.toList 0 < Nat.pow 2 127 then
      integer s = .ok (Nat.ofDigitChars 10 s.toList 0)
    else Raises (integer s) .numericOverflow := by
  rw [integer, if_pos h, ← value_eq_ofDigitChars]
  split
  · next hlt => exact if_pos hlt
  · next hlt => exact ⟨_, if_neg hlt, rfl⟩

open Expression (kinds kinds_numeral)

/-- A text is a single numeric token exactly if it is not refused as a literal of that form; a
decimal literal may also be converted without its point, which is an integer token. An integer
token is converted to its value in base ten, unless this is too large. -/
theorem accepts_iff_token (s : String) :
    (kinds s = [.integerLiteral] ↔ ¬Raises (integer s) .invalidForm) ∧
      (kinds s = [.integerLiteral] →
        if Nat.ofDigitChars 10 s.toList 0 < Nat.pow 2 127 then
          integer s = .ok (Nat.ofDigitChars 10 s.toList 0)
        else Raises (integer s) .numericOverflow) ∧
      (kinds s = [.decimalLiteral] ↔ '.' ∈ s.toList ∧ ¬Raises (decimal s) .invalidForm) ∧
      (kinds s = [.doubleLiteral] ↔ ¬Raises (double s) .invalidForm) := by
  have hinteger : kinds s = [.integerLiteral] ↔ Digits.isDigits s.toList = true :=
    (kinds_numeral rfl s).trans numeral_integer
  refine ⟨?_, ?_, ?_, ?_⟩
  · rw [hinteger, integer_form]
  · intro h
    exact integer_value (hinteger.mp h)
  · rw [kinds_numeral rfl, numeral_decimal, decimal_form]
  · rw [kinds_numeral rfl, ← doubleParts?_isSome, double_form]

/-- The least number that is too large is still an integer token. -/
theorem accepts_iff_token_limit :
    kinds "170141183460469231731687303715884105728" = [.integerLiteral] ∧
      Raises (integer "170141183460469231731687303715884105728") .numericOverflow := by
  have hkinds : kinds "170141183460469231731687303715884105728" = [.integerLiteral] := by
    decide +kernel
  have hlimit : ¬Nat.ofDigitChars 10 "170141183460469231731687303715884105728".toList 0
      < Nat.pow 2 127 := by decide +kernel
  have hvalue := (accepts_iff_token "170141183460469231731687303715884105728").2.1 hkinds
  rw [if_neg hlimit] at hvalue
  exact ⟨hkinds, hvalue⟩

end Literal

end XQuery
