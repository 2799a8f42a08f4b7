import XQuery.Proofs.Value.StringLiterals

/-!
# References in string literals

With references a literal is a sequence of pieces between its delimiters: a
character for itself, a doubled delimiter, or a reference to an entity or to a
character of XML by its number (`Literal.Piece`). The lexer decides where a
reference ends and whether it is complete, and the conversion decodes it. The
two together accept exactly the sequences of pieces, and the first `&` at which
no piece starts decides the error (`Literal.string_eq_ok_iff_denotes`).
-/

namespace XQuery

namespace Literal

open Expression

/-! ## The grammar of literals -/

/-- The references to entities and the characters that they stand for. -/
def entities : List (String × Char) :=
  [("&lt;", '<'), ("&gt;", '>'), ("&amp;", '&'), ("&quot;", '"'), ("&apos;", '\'')]

/-- A complete reference to a character by its number. -/
inductive NumericReference : List Char → Nat → Prop
  | decimal {digits : List Char} : digits ≠ [] → AllDigits digits →
      NumericReference ('&' :: '#' :: (digits ++ [';'])) (Digits.value digits)
  | hexadecimal {digits : List Char} : digits ≠ [] → (∀ c ∈ digits, isHexDigit c.toNat = true) →
      NumericReference ('&' :: '#' :: 'x' :: (digits ++ [';'])) (Digits.hexValue digits)

/-- A reference and the character that it denotes. -/
inductive Refers : List Char → Char → Prop
  | entity {name : String} {c : Char} : (name, c) ∈ entities → Refers name.toList c
  | numeric {cs : List Char} {c : Char} : NumericReference cs c.toNat →
      isXmlChar c.toNat = true → Refers cs c

/-- A piece of a literal and the character that it denotes. -/
inductive Piece (d : Delimiter) : List Char → Char → Prop
  | plain {c : Char} : c ≠ d.char → c ≠ '&' → Piece d [c] c
  | doubled : Piece d [d.char, d.char] d.char
  | reference {cs : List Char} {c : Char} : Refers cs c → Piece d cs c

/-- Pieces one after the other and the text that they denote. -/
inductive Denotes (d : Delimiter) : List Char → List Char → Prop
  | nil : Denotes d [] []
  | cons {cs rest v : List Char} {c : Char} : Piece d cs c → Denotes d rest v →
      Denotes d (cs ++ rest) (c :: v)

/-- The first bad reference of a literal is that in front of `tail`: all in front of it are pieces,
and none starts with its `&`. -/
structure FirstBad (d : Delimiter) (raw tail : List Char) : Prop where
  before : ∃ good v, raw = d.char :: (good ++ '&' :: tail) ∧ Denotes d good v
  bad : ∀ {cs : List Char} {c : Char}, Piece d cs c → ¬cs <+: '&' :: tail

/-! ## Reading a reference -/

theorem closeReference_closed (closed : Kind) (n : Nat) (rest : List Char) :
    closeReference closed n ((';' :: rest).map Char.toNat) = .token closed (n + 1) := rfl

theorem reference_decimal {digits : List Char} (hdigits : AllDigits digits) (rest : List Char) :
    reference (('#' :: (digits ++ ';' :: rest)).map Char.toNat)
      = .token .characterReference (2 + digits.length + 1) := by
  have hhash : CharClass.of '#'.toNat = .hash := by decide
  have hstops : Stops (';' :: rest) := .cons (by decide) rest
  have hnext : ¬next 'x' ((digits ++ ';' :: rest).map Char.toNat) = true := by
    rw [next_map, beq_iff_eq]
    cases digits with
    | nil => exact nofun
    | cons c digits =>
      rintro ⟨⟩
      cases hdigits 'x' List.mem_cons_self
  simp only [List.map_cons, reference, hhash]
  rw [if_neg hnext]
  simp only [Expression.digits_run hdigits hstops, drop_map_append, closeReference_closed]

theorem reference_hexadecimal {digits : List Char}
    (hdigits : ∀ c ∈ digits, isHexDigit c.toNat = true) (rest : List Char) :
    reference (('#' :: 'x' :: (digits ++ ';' :: rest)).map Char.toNat)
      = .token .characterReference (3 + digits.length + 1) := by
  have hhash : CharClass.of '#'.toNat = .hash := by decide
  have hrun : (((digits ++ ';' :: rest).map Char.toNat).takeWhile isHexDigit).length
      = digits.length := by
    refine takeWhile_run hdigits ?_
    rintro _ ⟨⟩
    decide
  simp only [List.map_cons, reference, hhash]
  rw [if_pos (by rfl)]
  simp only [List.tail_cons, hrun, drop_map_append, closeReference_closed]

theorem reference_entity {c : Char} (hc : CharClass.of c.toNat = .nameStartChar)
    {name : List Char} (hname : ∀ c ∈ name, isNameChar c = true) (rest : List Char) :
    reference ((c :: (name ++ ';' :: rest)).map Char.toNat)
      = .token .predefinedEntityReference (2 + name.length + 1) := by
  have hrun : nameChars ((name ++ ';' :: rest).map Char.toNat) = name.length := by
    refine count_run hname ?_
    rintro _ ⟨⟩
    decide
  rw [List.map_cons, reference, hc]
  simp only [hrun, drop_map_append, closeReference_closed]

theorem bind_strip?_reference (body : List Char) :
    (Text.strip? ['&', '#'] ('&' :: '#' :: (body ++ [';']))).bind (Text.stripEnd? [';'])
      = some body := Text.stripEnd?_eq_some.mpr rfl

theorem referenceNumber?_decimal {digits : List Char} (hne : digits ≠ [])
    (hdigits : AllDigits digits) :
    referenceNumber? ('&' :: '#' :: (digits ++ [';'])) = some (Digits.value digits) := by
  rw [referenceNumber?, bind_strip?_reference]
  split
  · next h => cases h
  · next h =>
      cases h
      exact absurd rfl hne
  · next h =>
      cases h
      cases hdigits 'x' List.mem_cons_self
  · next h =>
      cases h
      cases hdigits 'x' List.mem_cons_self
  · next h =>
      cases h
      rfl

theorem referenceNumber?_hexadecimal {digits : List Char} (hne : digits ≠ []) :
    referenceNumber? ('&' :: '#' :: 'x' :: (digits ++ [';'])) = some (Digits.hexValue digits) := by
  obtain ⟨c, digits, rfl⟩ := List.exists_cons_of_ne_nil hne
  rw [referenceNumber?, ← List.cons_append, bind_strip?_reference]
  rfl

theorem referenceNumber?_eq_none {body : List Char} (h : body ∈ [[], ['x']]) :
    referenceNumber? ('&' :: '#' :: (body ++ [';'])) = none := by
  rw [referenceNumber?, bind_strip?_reference]
  simp only [List.mem_cons, List.not_mem_nil, or_false] at h
  rcases h with rfl | rfl <;> rfl

/-- The text is read as a reference of the kind whatever stands behind it. -/
def IsReference (k : Kind) (cs : List Char) : Prop :=
  ∃ tail, cs = '&' :: tail ∧
    ∀ rest, reference ((tail ++ rest).map Char.toNat) = .token k cs.length

theorem NumericReference.isReference {cs : List Char} {n : Nat} (h : NumericReference cs n) :
    IsReference .characterReference cs := by
  cases h with
  | @decimal digits hne hdigits =>
    refine ⟨_, rfl, fun rest => ?_⟩
    rw [List.cons_append, List.append_assoc]
    refine (reference_decimal hdigits rest).trans (congrArg _ ?_)
    simp only [List.length_cons, List.length_append, List.length_nil]
    omega
  | @hexadecimal digits hne hdigits =>
    refine ⟨_, rfl, fun rest => ?_⟩
    rw [List.cons_append, List.cons_append, List.append_assoc]
    refine (reference_hexadecimal hdigits rest).trans (congrArg _ ?_)
    simp only [List.length_cons, List.length_append, List.length_nil]
    omega

theorem NumericReference.number {cs : List Char} {n : Nat} (h : NumericReference cs n) :
    referenceNumber? cs = some n := by
  cases h with
  | decimal hne hdigits => exact referenceNumber?_decimal hne hdigits
  | hexadecimal hne => exact referenceNumber?_hexadecimal hne

theorem entity_eq_ok {name : String} {c : Char} : entity name = .ok c ↔ (name, c) ∈ entities := by
  constructor
  · intro h
    unfold entity at h
    split at h
    all_goals
      cases h
    all_goals decide
  · intro h
    simp only [entities, List.mem_cons, Prod.mk.injEq, List.not_mem_nil, or_false] at h
    rcases h with ⟨rfl, rfl⟩ | ⟨rfl, rfl⟩ | ⟨rfl, rfl⟩ | ⟨rfl, rfl⟩ | ⟨rfl, rfl⟩
    all_goals rfl

/-- The name of an entity between its marks. -/
theorem exists_entity_name {name : String} {c : Char} (h : (name, c) ∈ entities) :
    ∃ first run, name.toList = '&' :: first :: (run ++ [';']) ∧
      CharClass.of (Char.toNat first) = .nameStartChar ∧ ∀ c ∈ run, isNameChar c = true := by
  simp only [entities, List.mem_cons, Prod.mk.injEq, List.not_mem_nil, or_false] at h
  rcases h with ⟨rfl, _⟩ | ⟨rfl, _⟩ | ⟨rfl, _⟩ | ⟨rfl, _⟩ | ⟨rfl, _⟩
  · exact ⟨'l', ['t'], rfl, by decide, List.all_eq_true.mp (by decide)⟩
  · exact ⟨'g', ['t'], rfl, by decide, List.all_eq_true.mp (by decide)⟩
  · exact ⟨'a', ['m', 'p'], rfl, by decide, List.all_eq_true.mp (by decide)⟩
  · exact ⟨'q', ['u', 'o', 't'], rfl, by decide, List.all_eq_true.mp (by decide)⟩
  · exact ⟨'a', ['p', 'o', 's'], rfl, by decide, List.all_eq_true.mp (by decide)⟩

theorem entity_isReference {name : String} {c : Char} (h : (name, c) ∈ entities) :
    IsReference .predefinedEntityReference name.toList := by
  obtain ⟨first, run, hname, hfirst, hrun⟩ := exists_entity_name h
  refine ⟨_, hname, fun rest => ?_⟩
  rw [hname, List.cons_append, List.append_assoc]
  refine (reference_entity hfirst hrun rest).trans (congrArg _ ?_)
  simp only [List.length_cons, List.length_append, List.length_nil]
  omega

theorem exists_of_closeReference {closed : Kind} {n m : Nat} {cs : List Char}
    (h : closeReference closed n (cs.map Char.toNat) = .token .characterReference m) :
    m = n + 1 ∧ ∃ behind, cs = ';' :: behind := by
  unfold closeReference at h
  split at h
  · next hnext =>
      rw [next_map, beq_iff_eq] at hnext
      cases h
      exact ⟨rfl, List.head?_eq_some_iff.mp hnext⟩
  · cases h

/-- Only marks around digits, of which there may be none, are read as a character reference. -/
theorem exists_digits_of_reference {tail rest : List Char}
    (h : reference ((tail ++ rest).map Char.toNat)
      = .token .characterReference (tail.length + 1)) :
    (∃ digits, AllDigits digits ∧ tail = '#' :: (digits ++ [';'])) ∨
      ∃ digits, (∀ c ∈ digits, isHexDigit c.toNat = true) ∧
        tail = '#' :: 'x' :: (digits ++ [';']) := by
  -- the text of the reference is as long as what was read
  have hcut : ∀ text behind : List Char, tail ++ rest = text ++ behind →
      tail.length = text.length → tail = text := fun _ _ heq hlength =>
    (List.append_inj heq hlength).1
  cases htext : tail ++ rest with
  | nil =>
    rw [htext] at h
    cases h
  | cons c cs =>
    rw [htext, List.map_cons, reference] at h
    split at h
    · have hkind := congrArg Step.kind h
      rcases closeReference_kind hkind with hk | hk <;> cases hk
    · next hc =>
        rw [eq_of_class '#' hc (by decide) (by decide)] at htext
        split at h
        · next hx =>
            rw [next_map, beq_iff_eq] at hx
            obtain ⟨cs, rfl⟩ := List.head?_eq_some_iff.mp hx
            obtain ⟨digits, behind, rfl, hdigits, hbehind⟩ :=
              Text.exists_run (isHexDigit ∘ Char.toNat) cs
            rw [List.map_cons, List.tail_cons, takeWhile_run hdigits hbehind] at h
            simp only [drop_map_append] at h
            obtain ⟨hlength, behind, rfl⟩ := exists_of_closeReference h
            refine .inr ⟨digits, hdigits, hcut _ behind (by rw [htext]; simp) ?_⟩
            simp only [List.length_cons, List.length_append, List.length_nil]
            omega
        · obtain ⟨digits, behind, rfl, hdigits, hbehind⟩ := exists_digits cs
          rw [Expression.digits_run hdigits hbehind] at h
          simp only [drop_map_append] at h
          obtain ⟨hlength, behind, rfl⟩ := exists_of_closeReference h
          refine .inl ⟨digits, hdigits, hcut _ behind (by rw [htext]; simp) ?_⟩
          simp only [List.length_cons, List.length_append, List.length_nil]
          omega
    · cases h
    · cases h

theorem numericReference_of_scanned {tail rest : List Char} {n : Nat}
    (h : reference ((tail ++ rest).map Char.toNat)
      = .token .characterReference (tail.length + 1))
    (hn : referenceNumber? ('&' :: tail) = some n) : NumericReference ('&' :: tail) n := by
  rcases exists_digits_of_reference h with ⟨digits, hdigits, rfl⟩ | ⟨digits, hdigits, rfl⟩
  · by_cases hne : digits = []
    · rw [hne, referenceNumber?_eq_none (by simp)] at hn
      cases hn
    · rw [referenceNumber?_decimal hne hdigits] at hn
      cases hn
      exact .decimal hne hdigits
  · by_cases hne : digits = []
    · rw [hne, ← List.cons_append, referenceNumber?_eq_none (by simp)] at hn
      cases hn
    · rw [referenceNumber?_hexadecimal hne] at hn
      cases hn
      exact .hexadecimal hne hdigits

/-! ## The value of a reference -/

theorem toNat_ofNat_of_isXmlChar {n : Nat} (h : isXmlChar n = true) : (Char.ofNat n).toNat = n := by
  have hvalid : n.isValidChar := by
    simp only [isXmlChar, Bool.or_eq_true, Bool.and_eq_true, beq_iff_eq, decide_eq_true_eq] at h
    unfold Nat.isValidChar
    omega
  rw [Char.ofNat, dif_pos hvalid]
  rfl

/-- A reference is read as a token whose value is the character that it denotes. -/
theorem Refers.exists_kind {cs : List Char} {c : Char} (h : Refers cs c) :
    ∃ k, IsReference k cs ∧
      ∀ raw, piece raw .xquery k (String.ofList cs) = .ok c.toString := by
  cases h with
  | entity hname =>
    refine ⟨_, entity_isReference hname, fun raw => ?_⟩
    rw [piece, String.ofList_toList, entity_eq_ok.mpr hname]
    rfl
  | numeric hnumber hxml =>
    refine ⟨_, hnumber.isReference, fun raw => ?_⟩
    rw [piece, character, String.toList_ofList, hnumber.number]
    simp only [hxml, if_true, Char.ofNat_toNat]
    rfl

variable {raw : String} {d : Delimiter} {w : Word} {rest : List Char}

theorem Inside.text_ne_nil (h : Inside d w rest) : w.text.toList ≠ [] := by
  cases h with
  | escaped _ htext => rw [htext]; exact List.cons_ne_nil _ _
  | reference htext _ _ => rw [htext]; exact List.cons_ne_nil _ _
  | contents _ hne => exact hne

/-- A word where a reference stands is that reference. -/
theorem Inside.eq_reference (h : Inside d w rest) {k : Kind} {cs behind : List Char}
    (hcs : IsReference k cs) (heq : w.text.toList ++ rest = cs ++ behind) :
    w.kind = k ∧ w.text.toList = cs := by
  obtain ⟨tail, rfl, hread⟩ := hcs
  cases h with
  | escaped _ htext =>
    rw [htext] at heq
    exact absurd (List.cons.inj heq).1 d.char_ne_amp
  | @reference text htext _ hstep =>
    have htail : text ++ rest = tail ++ behind := by
      rw [htext] at heq
      exact (List.cons.inj heq).2
    rw [htail, hread] at hstep
    have hkind := Option.some.inj (congrArg Step.kind hstep)
    have hlength : w.text.toList.length = ('&' :: tail).length :=
      (congrArg Step.length hstep).symm
    exact ⟨hkind.symm, (List.append_inj heq hlength).1⟩
  | contents _ hne hplain =>
    obtain ⟨c, text, htext⟩ := List.exists_cons_of_ne_nil hne
    rw [htext] at heq hplain
    exact absurd (List.cons.inj heq).1 (hplain c List.mem_cons_self).2

/-- A word that starts with the delimiter is a doubled one. -/
theorem Inside.eq_doubled (h : Inside d w rest) {behind : List Char}
    (heq : w.text.toList ++ rest = d.char :: behind) :
    w.kind = .escapedCharacter ∧ w.text.toList = [d.char, d.char] := by
  cases h with
  | escaped hkind htext => exact ⟨hkind, htext⟩
  | reference htext _ _ =>
    rw [htext] at heq
    exact absurd (List.cons.inj heq).1.symm d.char_ne_amp
  | contents _ hne hplain =>
    obtain ⟨c, text, htext⟩ := List.exists_cons_of_ne_nil hne
    rw [htext] at heq hplain
    exact absurd (List.cons.inj heq).1 (hplain c List.mem_cons_self).1

/-- A word that starts with any other character is text. -/
theorem Inside.eq_contents (h : Inside d w rest) {c : Char} {behind : List Char}
    (heq : w.text.toList ++ rest = c :: behind) (hdelimiter : c ≠ d.char) (hamp : c ≠ '&') :
    w.kind = .stringLiteralContents ∧ ∀ c ∈ w.text.toList, c ≠ d.char ∧ c ≠ '&' := by
  cases h with
  | escaped _ htext =>
    rw [htext] at heq
    exact absurd (List.cons.inj heq).1.symm hdelimiter
  | reference htext _ _ =>
    rw [htext] at heq
    exact absurd (List.cons.inj heq).1.symm hamp
  | contents hkind _ hplain => exact ⟨hkind, hplain⟩

theorem entity_raises {name : String} (h : ∀ c, (name, c) ∉ entities) :
    Raises (entity name) .malformed := by
  cases hentity : entity name with
  | ok c => exact absurd (entity_eq_ok.mp hentity) (h c)
  | error fault =>
    unfold entity at hentity
    split at hentity
    all_goals cases hentity
    exact ⟨_, rfl, rfl⟩

theorem raises_map {α β : Type} {result : Except Fault α} {code : ErrorCode}
    (h : Raises result code) (f : α → β) : Raises (result.map f) code := by
  obtain ⟨fault, rfl, hcode⟩ := h
  exact ⟨fault, rfl, hcode⟩

/-- A word that starts with an ampersand is read as a reference. -/
theorem Inside.scanned (h : Inside d w rest) {tail : List Char}
    (htext : w.text.toList = '&' :: tail) :
    Expression.reference ((tail ++ rest).map Char.toNat) = .token w.kind (tail.length + 1) := by
  cases h with
  | escaped _ hdoubled =>
    rw [hdoubled] at htext
    exact absurd (List.cons.inj htext).1 d.char_ne_amp
  | reference hcs _ hread =>
    rw [htext] at hcs hread
    cases hcs
    exact hread
  | contents _ _ hplain =>
    rw [htext] at hplain
    exact absurd rfl (hplain '&' List.mem_cons_self).2

/-- The value of a word that starts with an ampersand. -/
theorem Inside.reference_value (h : Inside d w rest) {tail : List Char}
    (htext : w.text.toList = '&' :: tail) (raw : String) :
    (∃ c, Refers w.text.toList c ∧ piece raw .xquery w.kind w.text = .ok c.toString) ∨
    ((∃ n, NumericReference w.text.toList n) ∧
      Raises (piece raw .xquery w.kind w.text) .nonXmlCharacter) ∨
    ((∀ n, ¬NumericReference w.text.toList n) ∧
      Raises (piece raw .xquery w.kind w.text) .malformed) := by
  have hnumeric : w.kind ≠ .characterReference → ∀ n, ¬NumericReference w.text.toList n :=
    fun hkind n hn => hkind (h.eq_reference hn.isReference rfl).1
  have hscanned := h.scanned htext
  rcases reference_kind (congrArg Step.kind hscanned) with hk | hk | hk | hk
  · rw [hk, piece]
    by_cases hentity : ∃ c, (w.text, c) ∈ entities
    · obtain ⟨c, hc⟩ := hentity
      refine .inl ⟨c, .entity hc, ?_⟩
      rw [entity_eq_ok.mpr hc]
      rfl
    · refine .inr (.inr ⟨hnumeric (by rw [hk]; decide), ?_⟩)
      exact raises_map (entity_raises fun c hc => hentity ⟨c, hc⟩) _
  · rw [hk] at hscanned
    rw [hk, piece, character]
    cases hn : referenceNumber? w.text.toList with
    | none =>
      refine .inr (.inr ⟨fun n hnum => ?_, _, rfl, rfl⟩)
      cases hn.symm.trans hnum.number
    | some n =>
      have hnum : NumericReference w.text.toList n := by
        rw [htext] at hn ⊢
        exact numericReference_of_scanned hscanned hn
      by_cases hxml : isXmlChar n = true
      · refine .inl ⟨Char.ofNat n, .numeric ?_ ?_, by simp only [hxml, if_true]; rfl⟩
        · rw [toNat_ofNat_of_isXmlChar hxml]
          exact hnum
        · rw [toNat_ofNat_of_isXmlChar hxml]
          exact hxml
      · refine .inr (.inl ⟨⟨n, hnum⟩, ?_⟩)
        simp only [hxml]
        exact ⟨_, rfl, rfl⟩
  · refine .inr (.inr ⟨hnumeric (by rw [hk]; decide), ?_⟩)
    rw [hk]
    exact ⟨_, rfl, rfl⟩
  · refine .inr (.inr ⟨hnumeric (by rw [hk]; decide), ?_⟩)
    rw [hk]
    exact ⟨_, rfl, rfl⟩

/-! ## Pieces and words -/

theorem Denotes.append {cs ds u v : List Char} (hu : Denotes d cs u) (hv : Denotes d ds v) :
    Denotes d (cs ++ ds) (u ++ v) := by
  induction hu with
  | nil => exact hv
  | cons hpiece _ ih =>
    rw [List.append_assoc]
    exact .cons hpiece ih

theorem Piece.denotes {cs : List Char} {c : Char} (h : Piece d cs c) : Denotes d cs [c] := by
  rw [← List.append_nil cs]
  exact .cons h .nil

theorem denotes_plain {cs : List Char} (h : ∀ c ∈ cs, c ≠ d.char ∧ c ≠ '&') :
    Denotes d cs cs := by
  induction cs with
  | nil => exact .nil
  | cons c cs ih =>
    obtain ⟨hc, hcs⟩ := List.forall_mem_cons.mp h
    exact .cons (.plain hc.1 hc.2) (ih hcs)

/-- A word that has a value is made of pieces that denote it. -/
theorem Inside.denotes (h : Inside d w rest) {x : String}
    (hx : piece raw .xquery w.kind w.text = .ok x) : Denotes d w.text.toList x.toList := by
  cases h with
  | escaped hkind htext =>
    rw [hkind] at hx
    cases hx
    rw [htext, String.toList_ofList]
    exact Piece.denotes .doubled
  | reference htext hdelimiter hread =>
    rcases (Inside.reference htext hdelimiter hread).reference_value htext raw with
      ⟨c, hc, hvalue⟩ | ⟨_, _, hfault, _⟩ | ⟨_, _, hfault, _⟩
    · cases hx.symm.trans hvalue
      rw [Char.toString, String.toList_singleton]
      exact Piece.denotes (.reference hc)
    · cases hx.symm.trans hfault
    · cases hx.symm.trans hfault
  | contents hkind _ hplain =>
    rw [hkind] at hx
    cases hx
    exact denotes_plain hplain

/-- Words that have a value are pieces that denote it. -/
theorem denotes_of_readAs {body : List Char} {inner ws : List Word}
    (h : ReadAs d.mode.code body (inner ++ ws)) {v : String}
    (hv : wordsValue raw .xquery inner = .ok v) :
    ∃ good rest, body = good ++ rest ∧ Denotes d good v.toList ∧ ReadAs d.mode.code rest ws := by
  induction inner generalizing body v with
  | nil =>
    cases hv
    exact ⟨[], body, rfl, .nil, h⟩
  | cons w inner ih =>
    obtain ⟨x, y, hx, hy, rfl⟩ := wordsValue_cons_eq_ok.mp hv
    obtain ⟨rest, rfl, ⟨hinside, hrest⟩ | ⟨hcloses, _⟩⟩ := readAs_mode h
    · obtain ⟨good, behind, rfl, hgood, hbehind⟩ := ih hrest hy
      refine ⟨w.text.toList ++ good, behind, (List.append_assoc ..).symm, ?_, hbehind⟩
      rw [String.toList_append]
      exact (hinside.denotes hx).append hgood
    · rw [hcloses.piece_error] at hx
      cases hx

/-- The first character of a piece tells what it is. -/
theorem Piece.head {cs : List Char} {c : Char} (h : Piece d cs c) :
    ∃ a tail, cs = a :: tail ∧
      ((a ≠ d.char ∧ a ≠ '&' ∧ tail = [] ∧ c = a) ∨
        (a = d.char ∧ tail = [d.char] ∧ c = d.char) ∨ (a = '&' ∧ Refers cs c)) := by
  cases h with
  | plain hdelimiter hamp => exact ⟨c, [], rfl, .inl ⟨hdelimiter, hamp, rfl, rfl⟩⟩
  | doubled => exact ⟨d.char, [d.char], rfl, .inr (.inl ⟨rfl, rfl, rfl⟩)⟩
  | reference hc =>
    obtain ⟨_, ⟨tail, rfl, _⟩, _⟩ := hc.exists_kind
    exact ⟨'&', tail, rfl, .inr (.inr ⟨rfl, hc⟩)⟩

/-- Where pieces begin with text, each of its characters is a piece. -/
theorem Denotes.cancel_plain {run good v rest behind : List Char} (h : Denotes d good v)
    (hrun : ∀ c ∈ run, c ≠ d.char ∧ c ≠ '&') (hrest : ∀ c ∈ rest.head?, c = d.char ∨ c = '&')
    (heq : run ++ behind = good ++ rest) :
    ∃ good' v', behind = good' ++ rest ∧ v = run ++ v' ∧ Denotes d good' v' := by
  induction run generalizing good v with
  | nil => exact ⟨good, v, heq, rfl, h⟩
  | cons a run ih =>
    obtain ⟨ha, hrun⟩ := List.forall_mem_cons.mp hrun
    cases h with
    | nil =>
      rw [List.nil_append] at heq
      rcases hrest a (by rw [← heq]; rfl) with rfl | rfl
      · exact absurd rfl ha.1
      · exact absurd rfl ha.2
    | cons hpiece hgood =>
      obtain ⟨a', tail, rfl, ⟨_, _, rfl, rfl⟩ | ⟨rfl, _⟩ | ⟨rfl, _⟩⟩ := hpiece.head
      · obtain ⟨rfl, hbehind⟩ := List.cons.inj heq
        obtain ⟨good', v', rfl, rfl, hv'⟩ := ih hgood hrun hbehind
        exact ⟨good', v', rfl, rfl, hv'⟩
      · exact absurd (List.cons.inj heq).1 ha.1
      · exact absurd (List.cons.inj heq).1 ha.2

/-- A word inside a literal takes a part of the pieces and has the text that they denote. -/
theorem Inside.exists_value (h : Inside d w rest) {good v behind : List Char}
    (hgood : Denotes d good v) (hne : good ≠ [])
    (hbehind : ∀ c ∈ behind.head?, c = d.char ∨ c = '&')
    (heq : w.text.toList ++ rest = good ++ behind) (raw : String) :
    ∃ x good' v', piece raw .xquery w.kind w.text = .ok x ∧ rest = good' ++ behind ∧
      v = x.toList ++ v' ∧ Denotes d good' v' := by
  cases hgood with
  | nil => exact absurd rfl hne
  | @cons cs good v c hpiece hgood =>
    obtain ⟨a, tail, rfl, ⟨hdelimiter, hamp, rfl, rfl⟩ | ⟨rfl, rfl, rfl⟩ | ⟨rfl, hc⟩⟩ :=
      hpiece.head
    · obtain ⟨hkind, hplain⟩ := h.eq_contents heq hdelimiter hamp
      obtain ⟨good', v', rfl, hv, hgood'⟩ :=
        (Denotes.cons hpiece hgood).cancel_plain hplain hbehind heq
      exact ⟨w.text, good', v', by rw [hkind]; rfl, rfl, hv, hgood'⟩
    · obtain ⟨hkind, htext⟩ := h.eq_doubled heq
      rw [htext] at heq
      refine ⟨String.ofList [d.char], good, v, ?_, ?_, by rw [String.toList_ofList]; rfl, hgood⟩
      · rw [hkind, piece, htext]
        rfl
      · exact (List.cons.inj (List.cons.inj heq).2).2
    · obtain ⟨k, hread, hvalue⟩ := hc.exists_kind
      rw [List.append_assoc] at heq
      obtain ⟨hkind, htext⟩ := h.eq_reference hread heq
      rw [htext] at heq
      refine ⟨c.toString, good, v, ?_, List.append_cancel_left heq, ?_, hgood⟩
      · rw [hkind, ← String.ofList_toList (s := w.text), htext, hvalue]
      · rw [Char.toString, String.toList_singleton]
        rfl

/-- A literal is not closed where pieces stand. -/
theorem Closes.not_denotes (h : Closes d w rest) {good v behind : List Char}
    (hgood : Denotes d good v) (heq : w.text.toList ++ rest = good ++ behind) : good = [] := by
  rw [h.text] at heq
  cases hgood with
  | nil => rfl
  | cons hpiece _ =>
    obtain ⟨a, tail, rfl, ⟨hdelimiter, _⟩ | ⟨rfl, rfl, _⟩ | ⟨rfl, _⟩⟩ := hpiece.head
    · exact absurd (List.cons.inj heq).1.symm hdelimiter
    · exact absurd (congrArg List.head? (List.cons.inj heq).2) h.single
    · exact absurd (List.cons.inj heq).1 d.char_ne_amp

theorem eq_nil_of_denotes {cs v : List Char} (h : Denotes d cs v) (hcs : cs = []) : v = [] := by
  cases h with
  | nil => rfl
  | cons hpiece _ =>
    obtain ⟨_, _, rfl, _⟩ := hpiece.head
    cases hcs

/-- Pieces are read as words that have the text they denote as their value. -/
theorem exists_words_of_denotes {good v rest : List Char} {ws : List Word}
    (h : ReadAs d.mode.code (good ++ rest) ws) (hgood : Denotes d good v)
    (hrest : ∀ c ∈ rest.head?, c = d.char ∨ c = '&') (raw : String) :
    ∃ inner behind, ws = inner ++ behind ∧
      wordsValue raw .xquery inner = .ok (String.ofList v) ∧ ReadAs d.mode.code rest behind := by
  induction ws generalizing good v with
  | nil =>
    generalize htext : good ++ rest = text at h
    cases h
    obtain ⟨hnil, rfl⟩ := List.append_eq_nil_iff.mp htext
    rw [eq_nil_of_denotes hgood hnil]
    exact ⟨[], [], rfl, rfl, .nil _⟩
  | cons w ws ih =>
    by_cases hnil : good = []
    · rw [eq_nil_of_denotes hgood hnil]
      rw [hnil] at h
      exact ⟨[], w :: ws, rfl, rfl, h⟩
    · obtain ⟨behind, heq, ⟨hinside, hbehind⟩ | ⟨hcloses, _⟩⟩ := readAs_mode h
      · obtain ⟨x, good', v', hx, rfl, rfl, hgood'⟩ :=
          hinside.exists_value hgood hnil hrest heq.symm raw
        obtain ⟨inner, behind, rfl, hinner, hread⟩ := ih hbehind hgood'
        refine ⟨w :: inner, behind, rfl, ?_, hread⟩
        refine wordsValue_cons_eq_ok.mpr ⟨x, _, hx, hinner, ?_⟩
        rw [String.ofList_append, String.ofList_toList]
      · exact absurd (hcloses.not_denotes hgood heq.symm) hnil

/-- The closing delimiter is one word. -/
theorem eq_closing {ws : List Word} (h : ReadAs d.mode.code [d.char] ws) :
    ∃ closing, ws = [closing] ∧ closing.kind = .stringLiteralEnd := by
  cases ws with
  | nil => cases h
  | cons w ws =>
    obtain ⟨rest, heq, ⟨hinside, _⟩ | ⟨hcloses, hrest⟩⟩ := readAs_mode h
    · rw [(hinside.eq_doubled heq.symm).2] at heq
      cases heq
    · rw [hcloses.text] at heq
      cases heq
      cases ws with
      | nil => exact ⟨w, rfl, hcloses.kind⟩
      | cons => exact absurd rfl hrest.ne_nil

/-- What is left for the closing word is the closing delimiter. -/
theorem eq_delimiter {closing : Word} (h : ReadAs d.mode.code rest [closing])
    (hclosing : closing.kind = .stringLiteralEnd) : rest = [d.char] := by
  obtain ⟨behind, rfl, ⟨hinside, _⟩ | ⟨hcloses, hbehind⟩⟩ := readAs_mode h
  · exact absurd hclosing hinside.kind_ne
  · cases hbehind
    rw [hcloses.text]
    rfl

theorem string_xquery_eq_ok {v : String} :
    string raw .xquery = .ok v ↔ ∃ (d : Delimiter) (body : List Char),
      raw.toList = d.char :: (body ++ [d.char]) ∧ Denotes d body v.toList := by
  constructor
  · intro h
    obtain ⟨d, body, inner, closing, hraw, hclosing, hread, hstring⟩ := exists_inner h
    rw [hstring] at h
    obtain ⟨good, rest, rfl, hgood, hrest⟩ := denotes_of_readAs hread h
    refine ⟨d, good, ?_, hgood⟩
    rw [hraw, eq_delimiter hrest hclosing]
  · rintro ⟨d, body, hraw, hbody⟩
    obtain ⟨opening, ws, hwords, hopening, hread⟩ := words_opening hraw
    obtain ⟨inner, behind, rfl, hinner, hbehind⟩ :=
      exists_words_of_denotes hread hbody (by rintro _ ⟨⟩; exact .inl rfl) raw
    obtain ⟨closing, rfl, hclosing⟩ := eq_closing hbehind
    rw [string_of_words hwords hopening hclosing, hinner, String.ofList_toList]

/-! ## The first bad reference -/

theorem wordsValue_append_error {before behind : List Word} {v : String}
    (hbefore : wordsValue raw .xquery before = .ok v) {code : ErrorCode}
    (hw : Raises (piece raw .xquery w.kind w.text) code) :
    Raises (wordsValue raw .xquery (before ++ w :: behind)) code := by
  induction before generalizing v with
  | nil =>
    obtain ⟨fault, hfault, hcode⟩ := hw
    refine ⟨fault, ?_, hcode⟩
    rw [List.nil_append, wordsValue_cons, hfault]
    rfl
  | cons w' before ih =>
    obtain ⟨x, y, hx, hy, rfl⟩ := wordsValue_cons_eq_ok.mp hbefore
    rw [List.cons_append, wordsValue_cons, hx]
    exact raises_map (ih hy) _

theorem exists_piece_of_mem {rules : StringRules} {ws : List Word} {v : String}
    (h : wordsValue raw rules ws = .ok v) (hw : w ∈ ws) :
    ∃ x, piece raw rules w.kind w.text = .ok x := by
  induction ws generalizing v with
  | nil => cases hw
  | cons w' ws ih =>
    obtain ⟨x, y, hx, hy, rfl⟩ := wordsValue_cons_eq_ok.mp h
    rcases List.mem_cons.mp hw with rfl | hw
    · exact ⟨x, hx⟩
    · exact ih hy hw

/-- A piece that starts with an ampersand is what is read there, and it has a value. -/
theorem Piece.scanned {cs tail : List Char} {c : Char} (h : Piece d cs c)
    (hcs : cs <+: '&' :: tail) {k : Kind} {n : Nat}
    (hread : Expression.reference (tail.map Char.toNat) = .token k n) (raw : String) :
    cs = ('&' :: tail).take n ∧ piece raw .xquery k (String.ofList cs) = .ok c.toString := by
  obtain ⟨behind, hbehind⟩ := hcs
  obtain ⟨a, run, rfl, ⟨_, hamp, _⟩ | ⟨rfl, _⟩ | ⟨rfl, hc⟩⟩ := h.head
  · exact absurd (List.cons.inj hbehind).1 hamp
  · exact absurd (List.cons.inj hbehind).1 d.char_ne_amp
  · obtain ⟨k', ⟨run', hrun, hread'⟩, hvalue⟩ := hc.exists_kind
    cases hrun
    have htail : run ++ behind = tail := (List.cons.inj hbehind).2
    rw [← htail, hread'] at hread
    cases hread
    exact ⟨by rw [← hbehind, List.take_left], hvalue raw⟩

/-- A literal has a value unless there is a bad reference in it. -/
theorem exists_firstBad {u : String} (h : string raw .xpath = .ok u) :
    (∃ v, string raw .xquery = .ok v) ∨ ∃ d tail, FirstBad d raw.toList tail := by
  obtain ⟨d, body, inner, closing, hraw, hclosing, hread, hstring⟩ := exists_inner h
  rw [hstring] at h
  cases hvalue : wordsValue raw .xquery inner with
  | ok v => exact .inl ⟨v, (hstring _).trans hvalue⟩
  | error fault =>
    obtain ⟨before, w, behind, x, rfl, hbefore, hfault⟩ := exists_of_wordsValue_error hvalue
    rw [List.append_assoc] at hread
    obtain ⟨good, rest, rfl, hgood, hrest⟩ := denotes_of_readAs hread hbefore
    obtain ⟨tail, rfl, ⟨hinside, _⟩ | ⟨hcloses, _⟩⟩ := readAs_mode hrest
    · have hbad : ∃ cs, w.text.toList = '&' :: cs := by
        cases hinside with
        | escaped hkind =>
          rw [hkind] at hfault
          cases hfault
        | reference htext => exact ⟨_, htext⟩
        | contents hkind =>
          rw [hkind] at hfault
          cases hfault
      obtain ⟨cs, htext⟩ := hbad
      rw [htext] at hraw
      refine .inr ⟨d, cs ++ tail, ⟨good, x.toList, hraw, hgood⟩, fun hpiece hcs => ?_⟩
      obtain ⟨hword, hok⟩ := hpiece.scanned hcs (hinside.scanned htext) raw
      rw [← List.cons_append, ← List.length_cons, List.take_left, ← htext] at hword
      rw [hword, String.ofList_toList] at hok
      cases hok.symm.trans hfault
    · obtain ⟨_, hok⟩ := exists_piece_of_mem h (w := w) (by simp)
      rw [hcloses.piece_error] at hok
      cases hok

/-- The first bad reference decides what is wrong with a literal. -/
theorem raises_of_firstBad {u : String} (h : string raw .xpath = .ok u) {tail : List Char}
    (hbad : FirstBad d raw.toList tail) :
    ((∃ cs n, NumericReference cs n ∧ cs <+: '&' :: tail) →
      Raises (string raw .xquery) .nonXmlCharacter) ∧
    ((∀ cs n, NumericReference cs n → ¬cs <+: '&' :: tail) →
      Raises (string raw .xquery) .malformed) := by
  obtain ⟨d', body, inner, closing, hraw, hclosing, hread, hstring⟩ := exists_inner h
  obtain ⟨good, v, hraw', hgood⟩ := hbad.before
  obtain ⟨hd, rfl⟩ := List.cons.inj (hraw.symm.trans hraw')
  obtain rfl := Delimiter.char_inj hd
  obtain ⟨before, behind, hwords, hbefore, hbehind⟩ :=
    exists_words_of_denotes hread hgood (by rintro _ ⟨⟩; exact .inr rfl) raw
  cases behind with
  | nil => cases hbehind
  | cons w behind =>
    obtain ⟨rest, heq, hinside, -⟩ := readAs_reference hbehind
    -- the word of the reference is not the closing one
    have hinner : ∃ behind, inner = before ++ w :: behind := by
      rcases List.eq_nil_or_concat behind with rfl | ⟨front, last, rfl⟩
      · obtain ⟨-, hlast⟩ := List.append_inj' hwords rfl
        cases hlast
        exact absurd hclosing hinside.kind_ne
      · rw [List.concat_eq_append, ← List.cons_append, ← List.append_assoc] at hwords
        exact ⟨front, (List.append_inj' hwords rfl).1⟩
    obtain ⟨behind, rfl⟩ := hinner
    obtain ⟨c, cs, htext⟩ := List.exists_cons_of_ne_nil hinside.text_ne_nil
    obtain rfl : '&' = c := by
      rw [htext] at heq
      exact (List.cons.inj heq).1
    have hcs : w.text.toList <+: '&' :: tail := ⟨rest, heq.symm⟩
    rw [hstring]
    rcases hinside.reference_value htext raw with
      ⟨c, hc, _⟩ | ⟨⟨n, hn⟩, hraises⟩ | ⟨hnone, hraises⟩
    · exact absurd hcs (hbad.bad (.reference hc))
    · exact ⟨fun _ => wordsValue_append_error hbefore hraises,
        fun hnone => absurd hcs (hnone _ n hn)⟩
    · refine ⟨?_, fun _ => wordsValue_append_error hbefore hraises⟩
      rintro ⟨p, n, hp, behind, hbehind⟩
      obtain ⟨-, hp'⟩ := hinside.eq_reference hp.isReference (heq.symm.trans hbehind.symm)
      rw [← hp'] at hp
      exact absurd hp (hnone n)

/-! ## Writing a text as a literal -/

/-- The text with a reference for every ampersand. -/
def escapeAmpersands (s : String) : String :=
  String.ofList (s.toList.flatMap fun c => if c = '&' then "&amp;".toList else [c])

theorem denotes_escaped (d : Delimiter) (s : String) :
    Denotes d (d.doubled (escapeAmpersands s).toList) s.toList := by
  rw [escapeAmpersands, String.toList_ofList]
  induction s.toList with
  | nil => exact .nil
  | cons c cs ih =>
    rw [List.flatMap_cons, d.doubled_append]
    refine .cons ?_ ih
    by_cases hamp : c = '&'
    · have hd : d.char ∉ "&amp;".toList := by cases d <;> decide
      rw [if_pos hamp, d.doubled_eq_self hd, hamp]
      exact .reference (.entity (by decide))
    · rw [if_neg hamp]
      by_cases hc : c = d.char
      · rw [hc, d.doubled_delimiter, d.doubled_nil]
        exact .doubled
      · rw [d.doubled_cons hc, d.doubled_nil]
        exact .plain hc hamp

/-- With references exactly the sequences of pieces between delimiters are literals, each with the
text that its pieces denote as its value. A complete literal without a value has a first bad
reference, which decides the error. Every text is the value of its escaped form. -/
theorem string_eq_ok_iff_denotes :
    (∀ raw v, string raw .xquery = .ok v ↔ ∃ (d : Delimiter) (body : List Char),
      raw.toList = d.char :: (body ++ [d.char]) ∧ Denotes d body v.toList) ∧
    (∀ raw u, string raw .xpath = .ok u →
      ((∃ v, string raw .xquery = .ok v) ∨ ∃ d tail, FirstBad d raw.toList tail) ∧
      ∀ d tail, FirstBad d raw.toList tail →
        ((∃ cs n, NumericReference cs n ∧ cs <+: '&' :: tail) →
          Raises (string raw .xquery) .nonXmlCharacter) ∧
        ((∀ cs n, NumericReference cs n → ¬cs <+: '&' :: tail) →
          Raises (string raw .xquery) .malformed)) ∧
    ∀ (d : Delimiter) (s : String), string (d.quoted (escapeAmpersands s)) .xquery = .ok s := by
  refine ⟨fun _ _ => string_xquery_eq_ok, fun raw u h => ?_, fun d s => ?_⟩
  · exact ⟨exists_firstBad h, fun d tail hbad => raises_of_firstBad h hbad⟩
  · exact string_xquery_eq_ok.mpr ⟨d, _, d.toList_quoted _, denotes_escaped d s⟩

/-- Leading zeros and digits of either case are read, and the reference to a surrogate decides the
error although an incomplete one stands behind it. -/
theorem string_eq_ok_iff_denotes_surrogate :
    string "'&#x0004a;''&lt;𝄞'" .xquery = .ok "J'<𝄞" ∧
      Raises (string "'&#xD800;&'" .xquery) .nonXmlCharacter := by
  obtain ⟨haccepted, hbad, -⟩ := string_eq_ok_iff_denotes
  constructor
  · have hletter : NumericReference "&#x0004a;".toList 'J'.toNat :=
      @NumericReference.hexadecimal "0004a".toList (by decide) (List.all_eq_true.mp (by decide))
    have hless : Refers "&lt;".toList '<' := .entity (by decide)
    have hbody : Denotes .apostrophe _ "J'<𝄞".toList :=
      .cons (.reference (.numeric hletter (by decide)))
        (.cons .doubled (.cons (.reference hless)
          (.cons (.plain (by decide) (by decide)) .nil)))
    exact (haccepted _ _).mpr ⟨.apostrophe, _, by decide +kernel, hbody⟩
  · have hsurrogate : NumericReference "&#xD800;".toList 0xD800 :=
      @NumericReference.hexadecimal "D800".toList (by decide) (List.all_eq_true.mp (by decide))
    have hcomplete : string "'&#xD800;&'" .xpath = .ok "&#xD800;&" :=
      string_xpath_eq_ok.mpr ⟨.apostrophe, by decide +kernel⟩
    refine ((hbad _ _ hcomplete).2 .apostrophe "#xD800;&'".toList ⟨?_, ?_⟩).1
      ⟨_, _, hsurrogate, "&'".toList, by decide⟩
    · exact ⟨[], [], by decide, .nil⟩
    · intro cs c hpiece hcs
      obtain ⟨rfl, hvalue⟩ := hpiece.scanned hcs (by rfl) ""
      cases hvalue

end Literal

end XQuery
