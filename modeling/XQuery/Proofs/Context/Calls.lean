import XQuery.Context.Static
import XQuery.Proofs.Context.Resolution

/-!
# Calls that fail and calls without a prefix

The arities that a failed call reports are exactly those with which the
function can be called (`Signatures.wrongArity_reports_callable`): below the
least unbounded minimum the bounded ranges are listed in full, and from there
on every arity is accepted.

The default function namespace is applied in two places, when a name is
expanded and when a call is resolved. For a name without prefix it makes no
difference which of them does it, unless a function without namespace accepts
the arity and there is a default namespace to prefer to it
(`Context.resolveFunction_unprefixed`).
-/

namespace XQuery

/-! ## Reported arities -/

namespace ArityRange

theorem contains_bounded {r : ArityRange} {max : Nat} (h : r.max = some max) (arity : Nat) :
    r.contains arity = true ↔ r.min ≤ arity ∧ arity ≤ max := by
  simp [contains, h]

theorem contains_unbounded {r : ArityRange} (h : r.max = none) (arity : Nat) :
    r.contains arity = true ↔ r.min ≤ arity := by
  simp [contains, h]

/-- A bounded range lists what it accepts: nothing, if its bounds are the wrong way round. -/
theorem mem_arities {r : ArityRange} {arity : Nat} :
    arity ∈ r.arities ↔ r.max ≠ none ∧ r.contains arity = true := by
  unfold arities
  cases hmax : r.max with
  | none => simp
  | some max =>
    rw [contains_bounded hmax]
    simp only [List.mem_range'_1, ne_eq, reduceCtorEq, not_false_eq_true, true_and]
    omega

end ArityRange

namespace Signatures

theorem mem_insertArity {n a : Nat} {as : List Nat} :
    a ∈ insertArity n as ↔ a = n ∨ a ∈ as := by
  induction as with
  | nil => simp [insertArity]
  | cons m as ih =>
    unfold insertArity
    split
    · simp
    · split
      · next heq => simp [heq]
      · simp only [List.mem_cons, ih]
        exact or_left_comm

theorem pairwise_insertArity {as : List Nat} (h : as.Pairwise (· < ·)) (n : Nat) :
    (insertArity n as).Pairwise (· < ·) := by
  induction as with
  | nil => simp [insertArity]
  | cons m as ih =>
    obtain ⟨hm, has⟩ := List.pairwise_cons.mp h
    unfold insertArity
    split
    · next hlt =>
        refine List.pairwise_cons.mpr ⟨?_, h⟩
        intro a ha
        rcases List.mem_cons.mp ha with rfl | ha
        · exact hlt
        · exact Nat.lt_trans hlt (hm a ha)
    · split
      · exact h
      · refine List.pairwise_cons.mpr ⟨?_, ih has⟩
        intro a ha
        rcases mem_insertArity.mp ha with rfl | ha
        · omega
        · exact hm a ha

theorem mem_foldr_insertArity {a : Nat} {as : List Nat} :
    a ∈ as.foldr insertArity [] ↔ a ∈ as := by
  induction as with
  | nil => simp
  | cons n as ih => simp [mem_insertArity, ih]

theorem pairwise_boundedArities (ranges : List ArityRange) (limit : Option Nat) :
    (boundedArities ranges limit).Pairwise (· < ·) := by
  unfold boundedArities
  generalize List.filter _ _ = as
  induction as with
  | nil => exact .nil
  | cons n as ih => exact pairwise_insertArity ih n

/-- What is listed is accepted by a bounded range and below the limit. -/
theorem mem_boundedArities {ranges : List ArityRange} {limit : Option Nat} {a : Nat} :
    a ∈ boundedArities ranges limit ↔
      (∃ r ∈ ranges, r.max ≠ none ∧ r.contains a = true) ∧ ∀ m, limit = some m → a < m := by
  unfold boundedArities
  rw [mem_foldr_insertArity, List.mem_filter, List.mem_flatMap]
  simp only [ArityRange.mem_arities]
  cases limit with
  | none => simp
  | some m => simp

theorem variadicFrom_eq_some {ranges : List ArityRange} {m : Nat} :
    variadicFrom ranges = some m ↔
      (∃ r ∈ ranges, r.max = none ∧ r.min = m) ∧ ∀ r ∈ ranges, r.max = none → m ≤ r.min := by
  unfold variadicFrom
  rw [List.min?_eq_some_iff]
  simp only [List.mem_map, List.mem_filter, Option.isNone_iff_eq_none, and_assoc]
  constructor
  · rintro ⟨hmem, hle⟩
    exact ⟨hmem, fun r hr hmax => hle _ ⟨r, hr, hmax, rfl⟩⟩
  · rintro ⟨hmem, hle⟩
    refine ⟨hmem, ?_⟩
    rintro _ ⟨r, hr, hmax, rfl⟩
    exact hle r hr hmax

theorem variadicFrom_eq_none {ranges : List ArityRange} :
    variadicFrom ranges = none ↔ ∀ r ∈ ranges, r.max ≠ none := by
  simp [variadicFrom]

/-- An unbounded range accepts what is not below the least minimum of such a range. -/
theorem exists_variadicFrom_le {ranges : List ArityRange} {a : Nat} :
    (∃ m, variadicFrom ranges = some m ∧ m ≤ a) ↔
      ∃ r ∈ ranges, r.max = none ∧ r.contains a = true := by
  constructor
  · rintro ⟨m, hm, hle⟩
    obtain ⟨⟨r, hr, hmax, rfl⟩, _⟩ := variadicFrom_eq_some.mp hm
    exact ⟨r, hr, hmax, (ArityRange.contains_unbounded hmax a).mpr hle⟩
  · rintro ⟨r, hr, hmax, hcontains⟩
    have hle := (ArityRange.contains_unbounded hmax a).mp hcontains
    cases hfrom : variadicFrom ranges with
    | none => exact absurd hmax (variadicFrom_eq_none.mp hfrom r hr)
    | some m => exact ⟨m, rfl, Nat.le_trans ((variadicFrom_eq_some.mp hfrom).2 r hr hmax) hle⟩

/-- An arity is accepted exactly if it is listed or not below the least unbounded minimum. -/
theorem exists_contains_iff {ranges : List ArityRange} {a : Nat} :
    (∃ r ∈ ranges, r.contains a = true) ↔
      a ∈ boundedArities ranges (variadicFrom ranges) ∨
        ∃ m, variadicFrom ranges = some m ∧ m ≤ a := by
  rw [mem_boundedArities, exists_variadicFrom_le]
  constructor
  · rintro ⟨r, hr, hcontains⟩
    by_cases hvariadic : ∃ r ∈ ranges, r.max = none ∧ r.contains a = true
    · exact .inr hvariadic
    · have hbounded : r.max ≠ none := fun hmax => hvariadic ⟨r, hr, hmax, hcontains⟩
      refine .inl ⟨⟨r, hr, hbounded, hcontains⟩, fun m hm => ?_⟩
      refine Nat.lt_of_not_le fun hle => hvariadic ?_
      exact exists_variadicFrom_le.mp ⟨m, hm, hle⟩
  · rintro (⟨⟨r, hr, _, hcontains⟩, _⟩ | ⟨r, hr, _, hcontains⟩)
    · exact ⟨r, hr, hcontains⟩
    · exact ⟨r, hr, hcontains⟩

theorem supports_of_overloads? {s : Signatures} {n : ExpandedName} {o : Overloads}
    (h : s.overloads? n = some o) (a : Nat) :
    s.supports n a = true ↔ ∃ r ∈ o.ranges, r.contains a = true := by
  simp [supports, h]

theorem resolveExactly_eq_wrongArity {s : Signatures} {n e : ExpandedName} {arity : Nat}
    {available : List Nat} {from? : Option Nat}
    (h : s.resolveExactly n arity = .error (.wrongArity e available from?)) :
    ∃ o, s.overloads? e = some o ∧ ¬s.supports e arity = true ∧
      available = boundedArities o.ranges (variadicFrom o.ranges) ∧
      from? = variadicFrom o.ranges := by
  unfold resolveExactly at h
  split at h
  · cases h
  · next o ho =>
      split at h
      · cases h
      · next hfind =>
          cases h
          refine ⟨o, ho, ?_, rfl, rfl⟩
          rw [supports_iff_find?, find?, ho]
          rintro ⟨r, hr⟩
          cases hfind.symm.trans hr

/-- A call that fails for its arity reports a registered name and the arities with which it can be
called: those that are listed, in ascending order, and all from the unbounded minimum on, below
which the listed ones are. The arity of the call is none of them. -/
theorem wrongArity_reports_callable (registrations : List (ExpandedName × ArityRange))
    (name : ExpandedName) (arity : Nat) (defaultUri : Option String) {e : ExpandedName}
    {available : List Nat} {from? : Option Nat}
    (h : (ofRegistrations registrations).resolve name arity defaultUri
      = .error (.wrongArity e available from?)) :
    (∃ r, (e, r) ∈ registrations) ∧ available.Pairwise (· < ·) ∧
    (∀ m, from? = some m → ∀ a ∈ available, a < m) ∧
    (∀ a, (ofRegistrations registrations).supports e a = true ↔
      a ∈ available ∨ ∃ m, from? = some m ∧ m ≤ a) ∧
    arity ∉ available ∧ ∀ m, from? = some m → arity < m := by
  rw [resolve_eq] at h
  obtain ⟨o, ho, hunsupported, rfl, rfl⟩ := resolveExactly_eq_wrongArity h
  have hcallable : ∀ a, (ofRegistrations registrations).supports e a = true ↔
      a ∈ boundedArities o.ranges (variadicFrom o.ranges) ∨
        ∃ m, variadicFrom o.ranges = some m ∧ m ≤ a := by
    intro a
    rw [supports_of_overloads? ho, exists_contains_iff]
  rw [hcallable, not_or] at hunsupported
  refine ⟨?_, pairwise_boundedArities _ _, ?_, hcallable, hunsupported.1, ?_⟩
  · exact ((tracks_ofRegistrations registrations).isSome e).mp (by rw [ho]; rfl)
  · intro m hm a ha
    exact (mem_boundedArities.mp ha).2 m hm
  · intro m hm
    exact Nat.lt_of_not_le fun hle => hunsupported.2 ⟨m, hm, hle⟩

/-- Overlapping ranges are listed once, and ranges without an arity or above the unbounded minimum
not at all. -/
theorem wrongArity_reports_callable_overlap :
    ∃ s, s = ofRegistrations [(⟨some "urn:x", "f"⟩, ⟨7, none⟩), (⟨some "urn:x", "f"⟩, ⟨2, some 3⟩),
        (⟨some "urn:x", "f"⟩, ⟨9, some 4⟩), (⟨some "urn:x", "f"⟩, ⟨5, none⟩),
        (⟨some "urn:x", "f"⟩, ⟨1, some 2⟩), (⟨some "urn:x", "f"⟩, ⟨6, some 8⟩)] ∧
      s.resolve ⟨none, "f"⟩ 4 (some "urn:x")
        = .error (.wrongArity ⟨some "urn:x", "f"⟩ [1, 2, 3] (some 5)) ∧
      ∀ a, s.supports ⟨some "urn:x", "f"⟩ a = true ↔ a ∈ [1, 2, 3] ∨ 5 ≤ a := by
  let f : ExpandedName := ⟨some "urn:x", "f"⟩
  have hresolve : (ofRegistrations [(f, ⟨7, none⟩), (f, ⟨2, some 3⟩), (f, ⟨9, some 4⟩),
      (f, ⟨5, none⟩), (f, ⟨1, some 2⟩), (f, ⟨6, some 8⟩)]).resolve ⟨none, "f"⟩ 4 (some "urn:x")
      = .error (.wrongArity f [1, 2, 3] (some 5)) := rfl
  refine ⟨_, rfl, hresolve, fun a => ?_⟩
  obtain ⟨_, _, _, hcallable, _⟩ := wrongArity_reports_callable _ _ _ _ hresolve
  exact (hcallable a).trans (by simp)

end Signatures

/-! ## Names without prefix -/

namespace Signatures

theorem resolve_of_uri (s : Signatures) (uri localName : String) (arity : Nat)
    (defaultUri : Option String) :
    s.resolve ⟨some uri, localName⟩ arity defaultUri
      = s.resolveExactly ⟨some uri, localName⟩ arity := rfl

theorem resolve_of_not_supports {s : Signatures} {localName : String} {arity : Nat}
    (h : s.supports ⟨none, localName⟩ arity = false) (defaultUri : Option String) :
    s.resolve ⟨none, localName⟩ arity defaultUri
      = s.resolveExactly ⟨defaultUri, localName⟩ arity := by
  have hname : s.calledName ⟨none, localName⟩ arity defaultUri = ⟨defaultUri, localName⟩ := by
    rw [calledName, if_neg (by simp [h])]
    cases defaultUri with
    | none => rfl
    | some uri => rfl
  rw [resolve_eq, hname]

/-- A function without namespace that accepts the arity is called as it is. -/
theorem resolve_of_supports {s : Signatures} {localName : String} {arity : Nat}
    (h : s.supports ⟨none, localName⟩ arity = true) (defaultUri : Option String) :
    ∃ range, s.resolve ⟨none, localName⟩ arity defaultUri = .ok ⟨⟨none, localName⟩, range⟩ := by
  obtain ⟨range, hfind⟩ := supports_iff_find?.mp h
  refine ⟨range, ?_⟩
  rw [resolve_eq, calledName, if_pos ⟨rfl, h⟩]
  exact resolveExactly_eq_ok.mpr ⟨range, hfind, rfl⟩

end Signatures

namespace Context

open Signatures

/-- The namespace of function names without prefix, as far as it is not empty. -/
def functionUri (c : Context) : Option String := c.defaultFunctionUri.filter (· != "")

/-- A name without prefix is expanded into the default function namespace. -/
theorem expand_unprefixed (c : Context) (f : String) :
    ∃ e, (QName.lexical none f).expand c .function = .ok e ∧
      e.expandedName? = some ⟨c.functionUri, f⟩ :=
  ⟨_, rfl, rfl⟩

theorem functionUri_cases (c : Context) :
    c.functionUri = none ∨ ∃ uri, c.functionUri = some uri ∧ c.defaultFunctionUri = some uri := by
  unfold functionUri
  cases c.defaultFunctionUri with
  | none => exact .inl rfl
  | some uri =>
    by_cases hempty : uri = ""
    · exact .inl (by simp [hempty])
    · exact .inr ⟨uri, by simp [Option.filter, hempty], rfl⟩

theorem resolveFunction_eq_ok {c : Context} {n : ExpandedName} {arity : Nat}
    {called : ResolvedFunction} :
    c.resolveFunction n arity = .ok called ↔
      c.signatures.resolve n arity c.defaultFunctionUri = .ok called := by
  unfold resolveFunction
  cases c.signatures.resolve n arity c.defaultFunctionUri with
  | ok found =>
    show Except.ok found = Except.ok called ↔ _
    rw [Except.ok.injEq, Except.ok.injEq]
  | error unresolved =>
    show Except.error (Fault.unresolvedFunction unresolved) = Except.ok called ↔ _
    simp

/-- The call by a name without prefix is resolved alike whether the name is expanded before or is
looked up without a namespace, as long as no function without namespace accepts the arity. Where one
does, it is called only without expansion, so that the results differ unless there is no default
namespace. -/
theorem resolveFunction_unprefixed (c : Context) (f : String) (arity : Nat) :
    ∃ e n, (QName.lexical none f).expand c .function = .ok e ∧ e.expandedName? = some n ∧
      (c.signatures.supports ⟨none, f⟩ arity = false →
        c.resolveFunction n arity = c.resolveFunction ⟨none, f⟩ arity) ∧
      (c.signatures.supports ⟨none, f⟩ arity = true →
        (c.resolveFunction n arity = c.resolveFunction ⟨none, f⟩ arity ↔ n.uri = none)) := by
  obtain ⟨e, hexpand, hname⟩ := c.expand_unprefixed f
  refine ⟨e, _, hexpand, hname, ?_, ?_⟩
  · intro hunsupported
    rcases c.functionUri_cases with hnone | ⟨uri, hsome, hdefault⟩
    · rw [hnone]
    · unfold resolveFunction
      rw [hsome, hdefault, resolve_of_uri, resolve_of_not_supports hunsupported]
  · intro hsupported
    constructor
    · intro hequal
      obtain ⟨range, hdirect⟩ := resolve_of_supports hsupported c.defaultFunctionUri
      rcases c.functionUri_cases with hnone | ⟨uri, hsome, -⟩
      · exact hnone
      · rw [hsome, resolveFunction_eq_ok.mpr hdirect, resolveFunction_eq_ok, resolve_of_uri]
          at hequal
        -- the function that is called has the name that was looked up
        obtain ⟨range', -, hcalled⟩ := resolveExactly_eq_ok.mp hequal
        cases hcalled
    · intro hnone
      have huri : c.functionUri = none := hnone
      rw [huri]

/-- The function without namespace does not accept two arguments, so that either way the one in the
default namespace is looked up, and its arity reported. -/
theorem resolveFunction_unprefixed_wrongArity :
    ∃ c : Context, c = {
        defaultFunctionUri := some "urn:x"
        signatures := ofRegistrations
          [(⟨none, "f"⟩, ⟨0, some 0⟩), (⟨some "urn:x", "f"⟩, ⟨1, some 1⟩)] } ∧
      c.signatures.supports ⟨none, "f"⟩ 2 = false ∧
      c.resolveFunction ⟨none, "f"⟩ 2
        = .error (.unresolvedFunction (.wrongArity ⟨some "urn:x", "f"⟩ [1] none)) ∧
      ∃ e n, (QName.lexical none "f").expand c .function = .ok e ∧ e.expandedName? = some n ∧
        c.resolveFunction n 2 = c.resolveFunction ⟨none, "f"⟩ 2 := by
  refine ⟨_, rfl, by decide, rfl, ?_⟩
  obtain ⟨e, n, hexpand, hname, hagree, -⟩ := resolveFunction_unprefixed _ "f" 2
  exact ⟨e, n, hexpand, hname, hagree (by decide)⟩

end Context

end XQuery
