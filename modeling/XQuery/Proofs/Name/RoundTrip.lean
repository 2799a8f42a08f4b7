import XQuery.Context.Static
import XQuery.Proofs.Text.Split

/-!
# Names and their texts

Reading a name accepts exactly the three written forms of `QName.Written`, and
the URI-qualified form of what was read is the text again. Expanding keeps the
local name, never yields an empty namespace, and is done once and for all; an
expanded name can be read back from its URI-qualified form unless a brace in
the namespace stands in the way (`QName.parse_round_trip`).
-/

namespace XQuery

namespace QName

/-- The forms in which a name is written. Between the braces stands any text without braces. -/
inductive Written : QName → String → Prop
  | plain {name : String} : isNCName name.toList → Written (.lexical none name) name
  | withPrefix {pre name : String} : isNCName pre.toList → isNCName name.toList →
      Written (.lexical (some pre) name) (pre ++ ":" ++ name)
  | braced {uri name : String} : '\x7b' ∉ uri.toList → '\x7d' ∉ uri.toList →
      isNCName name.toList →
      Written (.inNamespace (some uri) none name) (ExpandedName.braced uri name)

theorem inNamespace_empty (pre : Option String) (name : String) :
    inNamespace (some "") pre name = .expanded none pre name := rfl

theorem inNamespace_of_ne {uri : String} (h : uri ≠ "") (pre : Option String) (name : String) :
    inNamespace (some uri) pre name = .expanded (some uri) pre name := by
  simp [inNamespace, Option.filter, h]

/-! ## Reading -/

theorem isNameChar_of_mem {cs : List Char} (h : isNCName cs = true) {c : Char} (hc : c ∈ cs) :
    isNameChar c = true := by
  cases cs with
  | nil => cases hc
  | cons d cs =>
    simp only [isNCName, Bool.and_eq_true, List.all_eq_true] at h
    rcases List.mem_cons.mp hc with rfl | hc
    · have hstart : CharClass.of c.toNat = .nameStartChar := by
        simpa [isNameStartChar, CharClass.isNameStart] using h.1
      rw [isNameChar, hstart]
      rfl
    · exact h.2 c hc

/-- A character that does not continue a name is not in a name. -/
theorem not_mem_of_isNCName {cs : List Char} (h : isNCName cs = true) {c : Char}
    (hc : isNameChar c = false) : c ∉ cs := by
  intro hmem
  rw [isNameChar_of_mem h hmem] at hc
  cases hc

theorem colon_not_mem {cs : List Char} (h : isNCName cs = true) : ':' ∉ cs :=
  not_mem_of_isNCName h (by decide)

theorem brace_not_mem {cs : List Char} (h : isNCName cs = true) : '\x7b' ∉ cs :=
  not_mem_of_isNCName h (by decide)

theorem toList_braced (uri name : String) :
    (ExpandedName.braced uri name).toList
      = "Q\x7b".toList ++ (uri.toList ++ '\x7d' :: name.toList) := by
  simp [ExpandedName.braced]

theorem ofBraced?_eq_some {cs : List Char} {n : QName} :
    ofBraced? cs = some n ↔ ∃ uri name : String, '\x7b' ∉ uri.toList ∧ '\x7d' ∉ uri.toList ∧
      isNCName name.toList ∧ cs = uri.toList ++ '\x7d' :: name.toList ∧
      n = .inNamespace (some uri) none name := by
  constructor
  · intro h
    unfold ofBraced? at h
    split at h
    · next uri rest hsplit =>
        obtain ⟨huri, rfl⟩ := Text.splitAtFirst?_beq_eq_some.mp hsplit
        split at h
        · next hvalid =>
            cases h
            simp only [Bool.and_eq_true, Bool.not_eq_true', List.contains_eq_mem,
              decide_eq_false_iff_not] at hvalid
            refine ⟨String.ofList uri, String.ofList rest, ?_, ?_, ?_, ?_, rfl⟩
            · simpa using hvalid.1
            · simpa using huri
            · simpa using hvalid.2
            · simp
        · cases h
    · cases h
  · rintro ⟨uri, name, hopen, hclose, hname, rfl, rfl⟩
    have hsplit : Text.splitAtFirst? (· == '\x7d') (uri.toList ++ '\x7d' :: name.toList)
        = some (uri.toList, name.toList) := Text.splitAtFirst?_beq_eq_some.mpr ⟨hclose, rfl⟩
    simp [ofBraced?, hsplit, hopen, hname]

theorem ofLexical?_eq_some {cs : List Char} {n : QName} :
    ofLexical? cs = some n ↔
      (∃ name : String, isNCName name.toList ∧ cs = name.toList ∧ n = .lexical none name) ∨
      (∃ pre name : String, isNCName pre.toList ∧ isNCName name.toList ∧
        cs = pre.toList ++ ':' :: name.toList ∧ n = .lexical (some pre) name) := by
  constructor
  · intro h
    unfold ofLexical? at h
    split at h
    · next pre rest hsplit =>
        obtain ⟨_, rfl⟩ := Text.splitAtFirst?_beq_eq_some.mp hsplit
        split at h
        · next hvalid =>
            cases h
            rw [Bool.and_eq_true] at hvalid
            refine .inr ⟨String.ofList pre, String.ofList rest, ?_, ?_, ?_, rfl⟩
            · simpa using hvalid.1
            · simpa using hvalid.2
            · simp
        · cases h
    · split at h
      · next hvalid =>
          cases h
          exact .inl ⟨String.ofList cs, by simpa using hvalid, by simp, rfl⟩
      · cases h
  · rintro (⟨name, hname, rfl, rfl⟩ | ⟨pre, name, hpre, hname, rfl, rfl⟩)
    · have hsplit : Text.splitAtFirst? (· == ':') name.toList = none :=
        Text.splitAtFirst?_beq_eq_none.mpr (colon_not_mem hname)
      simp [ofLexical?, hsplit, hname]
    · have hsplit : Text.splitAtFirst? (· == ':') (pre.toList ++ ':' :: name.toList)
          = some (pre.toList, name.toList) :=
        Text.splitAtFirst?_beq_eq_some.mpr ⟨colon_not_mem hpre, rfl⟩
      simp [ofLexical?, hsplit, hpre, hname]

/-- A text without an opening brace does not start like a URI-qualified name. -/
theorem strip?_eq_none_of_brace_not_mem {cs : List Char} (h : '\x7b' ∉ cs) :
    Text.strip? "Q\x7b".toList cs = none := by
  cases hstrip : Text.strip? "Q\x7b".toList cs with
  | none => rfl
  | some rest =>
    rw [Text.strip?_eq_some.mp hstrip] at h
    simp at h

/-- Reading accepts the written forms and nothing else. -/
theorem parse_eq_ok {s : String} {n : QName} : parse s = .ok n ↔ Written n s := by
  have hparse : parse s = .ok n ↔ ofChars? s.toList = some n := by
    unfold parse
    cases ofChars? s.toList with
    | none => simp
    | some m => simp
  rw [hparse]
  constructor
  · intro h
    unfold ofChars? at h
    split at h
    · next rest hstrip =>
        obtain ⟨uri, name, hopen, hclose, hname, rfl, rfl⟩ := ofBraced?_eq_some.mp h
        have hs : s = ExpandedName.braced uri name := by
          rw [← String.toList_inj, toList_braced]
          exact Text.strip?_eq_some.mp hstrip
        rw [hs]
        exact .braced hopen hclose hname
    · rcases ofLexical?_eq_some.mp h with ⟨name, hname, hs, rfl⟩ | ⟨pre, name, hpre, hname, hs, rfl⟩
      · rw [String.toList_inj.mp hs]
        exact .plain hname
      · have hs : s = pre ++ ":" ++ name := by
          rw [← String.toList_inj, hs]
          simp
        rw [hs]
        exact .withPrefix hpre hname
  · intro h
    cases h with
    | plain hname =>
      rw [ofChars?, strip?_eq_none_of_brace_not_mem (brace_not_mem hname)]
      exact ofLexical?_eq_some.mpr (.inl ⟨_, hname, rfl, rfl⟩)
    | @withPrefix pre name hpre hname =>
      have hchars : (pre ++ ":" ++ name).toList = pre.toList ++ ':' :: name.toList := by simp
      have hbrace : '\x7b' ∉ pre.toList ++ ':' :: name.toList := by
        simp [brace_not_mem hpre, brace_not_mem hname]
      rw [hchars, ofChars?, strip?_eq_none_of_brace_not_mem hbrace]
      exact ofLexical?_eq_some.mpr (.inr ⟨pre, name, hpre, hname, rfl, rfl⟩)
    | braced hopen hclose hname =>
      rw [toList_braced, ofChars?, Text.strip?_eq_some.mpr rfl]
      exact ofBraced?_eq_some.mpr ⟨_, _, hopen, hclose, hname, rfl, rfl⟩

theorem Written.eqName_eq {n : QName} {s : String} (h : Written n s) : n.eqName = s := by
  cases h with
  | plain => rfl
  | withPrefix => rfl
  | @braced uri name =>
    by_cases huri : uri = ""
    · rw [huri, inNamespace_empty]
      rfl
    · rw [inNamespace_of_ne huri]
      rfl

theorem Written.text_eq {n : QName} {s : String} (h : Written n s) (hlexical : n.isLexical) :
    n.text = s := by
  cases h with
  | plain => rfl
  | withPrefix => rfl
  | braced => cases hlexical

theorem Written.isNCName_localName {n : QName} {s : String} (h : Written n s) :
    isNCName n.localName.toList := by
  cases h with
  | plain hname => exact hname
  | withPrefix _ hname => exact hname
  | braced _ _ hname => exact hname

/-! ## Names without a namespace of their own -/

/-- A name that is still lexical has no namespace yet. -/
def WellFormed (n : QName) : Prop := n.isLexical = true → n.uri = none

theorem WellFormed.eq_lexical {n : QName} (h : n.WellFormed) (hlexical : n.isLexical = true) :
    n = .lexical n.pre n.localName := by
  obtain ⟨uri, pre, localName, isLexical⟩ := n
  obtain rfl : isLexical = true := hlexical
  obtain rfl : uri = none := h rfl
  rfl

theorem Written.wellFormed {n : QName} {s : String} (h : Written n s) : n.WellFormed := by
  intro hlexical
  cases h with
  | plain => rfl
  | withPrefix => rfl
  | braced => cases hlexical

/-- What is read has no namespace while it is lexical. -/
theorem wellFormed_of_parse {n : QName} {s : String} (h : parse s = .ok n) : n.WellFormed :=
  (parse_eq_ok.mp h).wellFormed

/-! ## Expanding -/

/-- An expanded name whose namespace, if it has one, is not empty. -/
def Resolved (n : QName) : Prop := ∃ uri pre name, n = .inNamespace uri pre name

theorem Resolved.not_isLexical {n : QName} (h : n.Resolved) : n.isLexical = false := by
  obtain ⟨uri, pre, name, rfl⟩ := h
  rfl

theorem Resolved.uri_ne_empty {n : QName} (h : n.Resolved) : n.uri ≠ some "" := by
  obtain ⟨uri, pre, name, rfl⟩ := h
  simp [inNamespace, expanded, Option.filter_eq_some_iff]

/-- What is expanded is not expanded further, whatever the context. -/
theorem Resolved.expand_eq {n : QName} (h : n.Resolved) (c : Context) (kind : NameKind) :
    n.expand c kind = .ok n := by
  obtain ⟨uri, pre, name, rfl⟩ := h
  rfl

theorem Written.resolved_expand {n e : QName} {s : String} (h : Written n s) {c : Context}
    {kind : NameKind} (hexpand : n.expand c kind = .ok e) :
    e.Resolved ∧ e.localName = n.localName := by
  cases h with
  | plain =>
    cases hexpand
    exact ⟨⟨_, _, _, rfl⟩, rfl⟩
  | braced =>
    cases hexpand
    exact ⟨⟨_, _, _, rfl⟩, rfl⟩
  | @withPrefix pre name =>
    simp only [expand, lexical, if_true] at hexpand
    split at hexpand
    · cases hexpand
      exact ⟨⟨_, _, _, rfl⟩, rfl⟩
    · cases hexpand

/-- The URI-qualified form of an expanded name is read as the name without its prefix, if no brace
in the namespace stands in the way. -/
theorem Resolved.parse_eqName {n : QName} (h : n.Resolved) (hname : isNCName n.localName.toList)
    (huri : ∀ uri, n.uri = some uri → '\x7b' ∉ uri.toList ∧ '\x7d' ∉ uri.toList) :
    parse n.eqName = .ok (.expanded n.uri none n.localName) := by
  have hempty := h.uri_ne_empty
  obtain ⟨uri, pre, name, rfl⟩ := h
  rw [inNamespace] at *
  generalize uri.filter (· != "") = uri at *
  have hwritten : (.expanded uri none name : QName)
      = .inNamespace (some (uri.getD "")) none name := by
    cases uri with
    | none => rfl
    | some uri =>
      have hne : uri ≠ "" := fun heq => hempty (congrArg some heq)
      exact (inNamespace_of_ne hne none name).symm
  have hbraces : '\x7b' ∉ (uri.getD "").toList ∧ '\x7d' ∉ (uri.getD "").toList := by
    cases uri with
    | none => simp
    | some uri => exact huri uri rfl
  show parse (ExpandedName.braced (uri.getD "") name) = .ok (.expanded uri none name)
  rw [hwritten]
  exact parse_eq_ok.mpr (.braced hbraces.1 hbraces.2 hname)

/-- What is read of a text is written as this text. Expanding it, whatever the context, resolves
the namespace for good and keeps the local name, and the expanded name is read back from its
URI-qualified form. -/
theorem parse_round_trip {s : String} {n : QName} (h : parse s = .ok n) :
    n.eqName = s ∧ (n.isLexical → n.text = s) ∧
      ∀ (c : Context) (kind : NameKind) (e : QName), n.expand c kind = .ok e →
        e.isLexical = false ∧ e.localName = n.localName ∧ e.uri ≠ some "" ∧
        (∀ (c' : Context) (kind' : NameKind), e.expand c' kind' = .ok e) ∧
        ((∀ uri, e.uri = some uri → '\x7b' ∉ uri.toList ∧ '\x7d' ∉ uri.toList) →
          ∃ m, parse e.eqName = .ok m ∧ m.equal e ∧ m.expandedName? = e.expandedName?) := by
  have hwritten := parse_eq_ok.mp h
  refine ⟨hwritten.eqName_eq, hwritten.text_eq, ?_⟩
  intro c kind e hexpand
  obtain ⟨hresolved, hlocal⟩ := hwritten.resolved_expand hexpand
  refine ⟨hresolved.not_isLexical, hlocal, hresolved.uri_ne_empty, hresolved.expand_eq, ?_⟩
  intro huri
  have hname : isNCName e.localName.toList := by
    rw [hlocal]
    exact hwritten.isNCName_localName
  refine ⟨_, hresolved.parse_eqName hname huri, ?_, ?_⟩
  · obtain ⟨uri, pre, name, rfl⟩ := hresolved
    simp [equal, inNamespace, expanded]
  · obtain ⟨uri, pre, name, rfl⟩ := hresolved
    rfl

/-- The prefix `fn` is bound from the start, and is dropped on the way through the expanded name. -/
theorem parse_round_trip_fn :
    parse "fn:concat" = .ok (.lexical (some "fn") "concat") ∧
    (QName.lexical (some "fn") "concat").expand {} .function
      = .ok (.expanded (some Namespace.functions) (some "fn") "concat") ∧
    ∃ m, parse (ExpandedName.braced Namespace.functions "concat") = .ok m ∧
      m.equal (.expanded (some Namespace.functions) (some "fn") "concat") := by
  have hparse : parse "fn:concat" = .ok (.lexical (some "fn") "concat") :=
    parse_eq_ok.mpr (.withPrefix (by decide +kernel) (by decide +kernel))
  have hexpand : (QName.lexical (some "fn") "concat").expand {} .function
      = .ok (.expanded (some Namespace.functions) (some "fn") "concat") := rfl
  have hbraces : '\x7b' ∉ Namespace.functions.toList ∧ '\x7d' ∉ Namespace.functions.toList := by
    decide +kernel
  obtain ⟨_, _, hround⟩ := parse_round_trip hparse
  obtain ⟨_, _, _, _, hback⟩ := hround {} .function _ hexpand
  obtain ⟨m, hm, hequal, _⟩ := hback (by rintro uri ⟨⟩; exact hbraces)
  exact ⟨hparse, hexpand, m, hm, hequal⟩

end QName

end XQuery
