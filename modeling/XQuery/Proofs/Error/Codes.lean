import XQuery.Error.Code
import XQuery.Proofs.Text.Split

/-!
# Error codes and their texts

Every text is the text of a code, in one of three forms (`Error.Spells`). The
code is written as this text again, unless the text spells out the namespace of
error codes, for which a prefix is written. Either text names the same known
code, and a code with a namespace is read back from its text as long as no
brace ends the namespace early (`Error.parseCode_round_trip`).
-/

namespace XQuery

namespace Error

/-! ## Reading -/

/-- The forms in which a code is written. The URI ends at the first closing brace, and what has
neither of the two other forms is a bare local name. -/
inductive Spells : String → ExpandedName → Prop
  | withPrefix (localName : String) :
      Spells ("err:" ++ localName) ⟨some Namespace.errors, localName⟩
  | braced {uri : String} (localName : String) : '\x7d' ∉ uri.toList →
      Spells (ExpandedName.braced uri localName) ⟨some uri, localName⟩
  | bare {s : String} : (∀ localName, s ≠ "err:" ++ localName) →
      (∀ uri localName, '\x7d' ∉ uri.toList → s ≠ ExpandedName.braced uri localName) →
      Spells s ⟨none, s⟩

theorem exists_toList (cs : List Char) : ∃ s : String, cs = s.toList := ⟨.ofList cs, by simp⟩

theorem strip?_err {s localName : String} :
    Text.strip? "err:".toList s.toList = some localName.toList ↔ s = "err:" ++ localName := by
  rw [Text.strip?_eq_some, ← String.toList_inj, String.toList_append]

theorem strip?_err_eq_none {s : String} :
    Text.strip? "err:".toList s.toList = none ↔ ∀ localName, s ≠ "err:" ++ localName := by
  constructor
  · rintro hnone localName rfl
    rw [strip?_err.mpr rfl] at hnone
    cases hnone
  · intro hne
    cases hstrip : Text.strip? "err:".toList s.toList with
    | none => rfl
    | some rest =>
      obtain ⟨localName, rfl⟩ := exists_toList rest
      exact absurd (strip?_err.mp hstrip) (hne localName)

/-- Between the braces and behind them stand the URI and the local name. -/
theorem bind_strip?_braced {s uri localName : String} :
    (Text.strip? "Q\x7b".toList s.toList).bind (Text.splitAtFirst? (· == '\x7d'))
        = some (uri.toList, localName.toList) ↔
      '\x7d' ∉ uri.toList ∧ s = ExpandedName.braced uri localName := by
  simp only [Option.bind_eq_some_iff, Text.strip?_eq_some, Text.splitAtFirst?_beq_eq_some,
    ← String.toList_inj]
  constructor
  · rintro ⟨_, hs, huri, rfl⟩
    exact ⟨huri, by simp [hs, ExpandedName.braced]⟩
  · rintro ⟨huri, hs⟩
    exact ⟨_, by simp [hs, ExpandedName.braced], huri, rfl⟩

theorem braced_ne_err (uri localName rest : String) :
    ExpandedName.braced uri localName ≠ "err:" ++ rest := by
  intro h
  have hchars := congrArg String.toList h
  simp [ExpandedName.braced] at hchars

theorem parseCode_err (localName : String) :
    parseCode ("err:" ++ localName) = ⟨some Namespace.errors, localName⟩ := by
  rw [parseCode, strip?_err.mpr rfl]
  simp

theorem parseCode_braced {uri : String} (h : '\x7d' ∉ uri.toList) (localName : String) :
    parseCode (ExpandedName.braced uri localName) = ⟨some uri, localName⟩ := by
  rw [parseCode, strip?_err_eq_none.mpr (braced_ne_err uri localName),
    bind_strip?_braced.mpr ⟨h, rfl⟩]
  simp

theorem spells_parseCode (s : String) : Spells s (parseCode s) := by
  unfold parseCode
  split
  · next rest hstrip =>
      obtain ⟨localName, rfl⟩ := exists_toList rest
      rw [strip?_err.mp hstrip, String.ofList_toList]
      exact .withPrefix localName
  · next herr =>
      split
      · next uri rest hsplit =>
          obtain ⟨uri, rfl⟩ := exists_toList uri
          obtain ⟨localName, rfl⟩ := exists_toList rest
          obtain ⟨huri, rfl⟩ := bind_strip?_braced.mp hsplit
          rw [String.ofList_toList, String.ofList_toList]
          exact .braced localName huri
      · next hsplit =>
          refine .bare (strip?_err_eq_none.mp herr) ?_
          intro uri localName huri hs
          rw [bind_strip?_braced.mpr ⟨huri, hs⟩] at hsplit
          cases hsplit

/-! ## Writing -/

theorem codeText_errors (localName : String) :
    codeText ⟨some Namespace.errors, localName⟩ = "err:" ++ localName := if_pos rfl

theorem codeText_of_ne {n : ExpandedName} (h : n.uri ≠ some Namespace.errors) :
    codeText n = n.text := if_neg h

/-- A code with a namespace is read back from its text, unless a brace ends the namespace early. -/
theorem parseCode_codeText {uri : String} (h : '\x7d' ∉ uri.toList) (localName : String) :
    parseCode (codeText ⟨some uri, localName⟩) = ⟨some uri, localName⟩ := by
  by_cases huri : uri = Namespace.errors
  · subst huri
    rw [codeText_errors, parseCode_err]
  · rw [codeText_of_ne (by simpa using huri)]
    exact parseCode_braced h localName

theorem Spells.parseCode_codeText {s : String} {n : ExpandedName} (h : Spells s n)
    (hs : parseCode s = n) : parseCode (codeText n) = n := by
  cases h with
  | withPrefix localName => rw [codeText_errors, hs]
  | braced localName huri => exact Error.parseCode_codeText huri localName
  | bare herr hbraced => exact hs

/-- The text is kept, unless it spells out the namespace of error codes. -/
theorem Spells.codeText_eq {s : String} {n : ExpandedName} (h : Spells s n)
    (hs : ∀ localName, s ≠ ExpandedName.braced Namespace.errors localName) : codeText n = s := by
  cases h with
  | withPrefix localName => exact codeText_errors localName
  | @braced uri localName huri =>
    refine codeText_of_ne ?_
    intro heq
    cases heq
    exact hs localName rfl
  | bare herr hbraced => rfl

/-! ## Known codes -/

theorem ofText_err (localName : String) :
    ErrorCode.ofText ("err:" ++ localName) = ErrorCode.ofLocalName localName := by
  rw [ErrorCode.ofText, strip?_err.mpr rfl]
  simp

theorem ofText_of_ne {s : String} (h : ∀ localName, s ≠ "err:" ++ localName) :
    ErrorCode.ofText s = .unknown := by
  rw [ErrorCode.ofText, strip?_err_eq_none.mpr h]

/-- The text of a code that was read starts with the prefix only if the code is in the namespace of
error codes. -/
theorem Spells.codeText_ne_err {s : String} {n : ExpandedName} (h : Spells s n)
    (hn : n.uri ≠ some Namespace.errors) (localName : String) : codeText n ≠ "err:" ++ localName := by
  rw [codeText_of_ne hn]
  cases h with
  | withPrefix localName => exact absurd rfl hn
  | @braced uri name huri => exact braced_ne_err uri name localName
  | bare herr hbraced => exact herr localName

theorem Spells.knownCode_eq {s : String} {e : Error} (h : Spells s e.code) :
    e.knownCode = ErrorCode.ofText (codeText e.code) := by
  unfold knownCode
  split
  · next huri =>
      rw [codeText, if_pos huri, ofText_err]
  · next huri => rw [ofText_of_ne (h.codeText_ne_err huri)]

theorem brace_not_mem_errors : '\x7d' ∉ Namespace.errors.toList := by decide

/-- The code that is read of a text is read again of its own text. This is the same text, but for
one that spells out the namespace of error codes, and it names the known code that the error has.
Whatever code has a namespace without a closing brace is read back from its text. -/
theorem parseCode_round_trip :
    (∀ s message : String,
      let e : Error := { code := parseCode s, message }
      parseCode (codeText e.code) = e.code ∧
      (∀ localName, s = ExpandedName.braced Namespace.errors localName →
        codeText e.code = "err:" ++ localName) ∧
      ((∀ localName, s ≠ ExpandedName.braced Namespace.errors localName) → codeText e.code = s) ∧
      e.knownCode = ErrorCode.ofText (codeText e.code)) ∧
    ∀ (n : ExpandedName) (uri : String), n.uri = some uri → '\x7d' ∉ uri.toList →
      parseCode (codeText n) = n := by
  constructor
  · intro s message e
    have hspells : Spells s e.code := spells_parseCode s
    refine ⟨hspells.parseCode_codeText rfl, ?_, hspells.codeText_eq, hspells.knownCode_eq⟩
    rintro localName rfl
    have hcode : e.code = ⟨some Namespace.errors, localName⟩ :=
      parseCode_braced brace_not_mem_errors localName
    rw [hcode, codeText_errors]
  · rintro ⟨_, localName⟩ uri rfl huri
    exact parseCode_codeText huri localName

/-- The namespace of error codes is written as a prefix, a text with an opening brace alone is a
bare name, and a brace in the local name does no harm, even behind an empty namespace. -/
theorem parseCode_round_trip_braces :
    codeText (parseCode (ExpandedName.braced Namespace.errors "FOAR0002")) = "err:FOAR0002" ∧
    codeText (parseCode "Q\x7burn:x") = "Q\x7burn:x" ∧
    parseCode (codeText ⟨some "", "a\x7db"⟩) = ⟨some "", "a\x7db"⟩ := by
  obtain ⟨hread, hwritten⟩ := parseCode_round_trip
  refine ⟨?_, ?_, hwritten _ "" rfl (by decide)⟩
  · exact (hread (ExpandedName.braced Namespace.errors "FOAR0002") "").2.1 "FOAR0002" rfl
  · refine (hread "Q\x7burn:x" "").2.2.1 ?_
    intro localName h
    have hchars := congrArg String.toList h
    simp [ExpandedName.braced, Namespace.errors] at hchars

end Error

end XQuery
