import XQuery.Context.Functions

/-!
# Resolution of function calls

However functions are registered, the overloads of a name are its registered
ranges in the one order from the most specific to the least (`Tracks`). What
is registered in another order is therefore found alike, and the first
overload that accepts an arity is the most specific one that does
(`Signatures.resolve_most_specific`).
-/

namespace XQuery

namespace ArityRange

theorem moreSpecific_irrefl (r : ArityRange) : ¬r.moreSpecific r := by
  rw [moreSpecific_iff]
  rintro (hlt | ⟨_, a, ha, hlt⟩)
  · exact Nat.lt_irrefl _ hlt
  · exact Nat.lt_irrefl a (hlt a ha)

theorem moreSpecific_asymm {r s : ArityRange} (hrs : r.moreSpecific s) : ¬s.moreSpecific r :=
  fun hsr => moreSpecific_irrefl r (moreSpecific_trans hrs hsr)

theorem Ordered.nodup {rs : List ArityRange} (h : Ordered rs) : rs.Nodup := by
  refine h.imp ?_
  rintro r s hrs rfl
  exact moreSpecific_irrefl r hrs

/-- The order of a list of overloads is given by its members. -/
theorem Ordered.ext {rs ss : List ArityRange} (hrs : Ordered rs) (hss : Ordered ss)
    (h : ∀ r, r ∈ rs ↔ r ∈ ss) : rs = ss := by
  have hperm : rs.Perm ss := (List.perm_ext_iff_of_nodup hrs.nodup hss.nodup).mpr h
  refine hperm.eq_of_pairwise ?_ hrs hss
  intro r s _ _ hrs hsr
  exact absurd hsr (moreSpecific_asymm hrs)

/-- The first range that accepts an arity is more specific than all others that do. -/
theorem Ordered.find?_moreSpecific {rs : List ArityRange} (h : Ordered rs) {arity : Nat}
    {r : ArityRange} (hfind : rs.find? (·.contains arity) = some r) {s : ArityRange}
    (hs : s ∈ rs) (harity : s.contains arity) (hne : s ≠ r) : r.moreSpecific s := by
  obtain ⟨_, before, after, rfl, hbefore⟩ := List.find?_eq_some_iff_append.mp hfind
  have hafter := (List.pairwise_cons.mp (List.pairwise_append.mp h).2.1).1
  rcases List.mem_append.mp hs with hs | hs
  · have hnot := hbefore s hs
    simp [harity] at hnot
  · rcases List.mem_cons.mp hs with hs | hs
    · exact absurd hs hne
    · exact hafter s hs

end ArityRange

theorem Overloads.ext {o p : Overloads} (h : ∀ r, r ∈ o.ranges ↔ r ∈ p.ranges) : o = p := by
  obtain ⟨ranges, hordered⟩ := o
  obtain ⟨ranges', hordered'⟩ := p
  cases hordered.ext hordered' h
  rfl

theorem Overloads.mem_add {o : Overloads} {r s : ArityRange} :
    s ∈ (o.add r).ranges ↔ s = r ∨ s ∈ o.ranges := ArityRange.mem_insertInto

namespace Signatures

/-! ## Registering -/

/-- The signatures after the overloads have been registered one by one. -/
def ofRegistrations (registrations : List (ExpandedName × ArityRange)) : Signatures :=
  registrations.foldl (fun s (name, range) => s.register name range) {}

@[simp] theorem overloads?_nil (name : ExpandedName) : overloads? {} name = none := rfl

theorem overloads?_cons (n : ExpandedName) (o : Overloads)
    (table : List (ExpandedName × Overloads)) (name : ExpandedName) :
    overloads? ⟨(n, o) :: table⟩ name = if n = name then some o else overloads? ⟨table⟩ name := by
  by_cases hn : n = name
  · simp [overloads?, hn]
  · simp [overloads?, hn]

/-- Registering adds to the overloads of one name and leaves all others alone. -/
theorem overloads?_register (s : Signatures) (name : ExpandedName) (range : ArityRange)
    (n : ExpandedName) :
    (s.register name range).overloads? n
      = if n = name then some (((s.overloads? name).getD .none).add range)
        else s.overloads? n := by
  obtain ⟨table⟩ := s
  simp only [register]
  induction table with
  | nil =>
    rw [insert, overloads?_cons]
    simp only [eq_comm, overloads?_nil, Option.getD_none]
  | cons entry table ih =>
    obtain ⟨m, o⟩ := entry
    rw [insert]
    by_cases hm : m = name
    · subst hm
      rw [if_pos rfl, overloads?_cons, overloads?_cons, overloads?_cons, if_pos rfl]
      by_cases hn : n = m
      · simp [hn]
      · simp [hn, Ne.symm hn]
    · rw [if_neg hm, overloads?_cons, ih, overloads?_cons, overloads?_cons, if_neg hm]
      by_cases hn : m = n
      · subst hn
        simp [hm]
      · simp [hn]

/-- The signatures hold exactly these registrations. -/
structure Tracks (s : Signatures) (registrations : List (ExpandedName × ArityRange)) : Prop where
  isSome : ∀ n, (s.overloads? n).isSome ↔ ∃ r, (n, r) ∈ registrations
  mem : ∀ {n o}, s.overloads? n = some o → ∀ r, r ∈ o.ranges ↔ (n, r) ∈ registrations

theorem tracks_nil : Tracks {} [] := ⟨by simp [overloads?], by simp [overloads?]⟩

/-- The ranges of a name, which has none if it is not registered. -/
theorem Tracks.mem_getD {s : Signatures} {registrations : List (ExpandedName × ArityRange)}
    (h : s.Tracks registrations) (n : ExpandedName) (r : ArityRange) :
    r ∈ ((s.overloads? n).getD .none).ranges ↔ (n, r) ∈ registrations := by
  cases ho : s.overloads? n with
  | some o => exact h.mem ho r
  | none =>
    have hnone : ¬∃ r, (n, r) ∈ registrations := by simp [← h.isSome, ho]
    simp [Overloads.none, mt (Exists.intro r) hnone]

theorem Tracks.register {s : Signatures} {registrations : List (ExpandedName × ArityRange)}
    (h : s.Tracks registrations) (name : ExpandedName) (range : ArityRange) :
    (s.register name range).Tracks ((name, range) :: registrations) := by
  refine ⟨fun n => ?_, fun {n o} ho r => ?_⟩
  · rw [overloads?_register]
    by_cases hn : n = name
    · simp [hn]
    · simp [hn, h.isSome]
  · rw [overloads?_register] at ho
    by_cases hn : n = name
    · subst hn
      rw [if_pos rfl] at ho
      cases ho
      simp [Overloads.mem_add, h.mem_getD]
    · rw [if_neg hn] at ho
      simp [h.mem ho, hn]

theorem Tracks.foldl {s : Signatures} {before : List (ExpandedName × ArityRange)}
    (h : s.Tracks before) (registrations : List (ExpandedName × ArityRange)) :
    (registrations.foldl (fun s (name, range) => s.register name range) s).Tracks
      (registrations.reverse ++ before) := by
  induction registrations generalizing s before with
  | nil => exact h
  | cons registration registrations ih =>
    obtain ⟨name, range⟩ := registration
    rw [List.foldl_cons, List.reverse_cons, List.append_assoc]
    exact ih (h.register name range)

theorem tracks_ofRegistrations (registrations : List (ExpandedName × ArityRange)) :
    (ofRegistrations registrations).Tracks registrations := by
  have htracks := tracks_nil.foldl registrations
  rw [List.append_nil] at htracks
  refine ⟨fun n => (htracks.isSome n).trans ?_, fun ho r => (htracks.mem ho r).trans ?_⟩
  · simp only [List.mem_reverse]
  · simp only [List.mem_reverse]

/-- What is registered determines the overloads of every name, in whatever order it was
registered. -/
theorem Tracks.overloads?_eq {s t : Signatures}
    {registrations registrations' : List (ExpandedName × ArityRange)}
    (hs : s.Tracks registrations) (ht : t.Tracks registrations')
    (h : ∀ p, p ∈ registrations ↔ p ∈ registrations') (n : ExpandedName) :
    s.overloads? n = t.overloads? n := by
  have hsome : (s.overloads? n).isSome = (t.overloads? n).isSome := by
    simp only [Bool.eq_iff_iff, hs.isSome, ht.isSome, h]
  cases ho : s.overloads? n with
  | none =>
    rw [ho] at hsome
    exact (Option.isSome_eq_false_iff.mp hsome.symm |> Option.isNone_iff_eq_none.mp).symm
  | some o =>
    rw [ho] at hsome
    obtain ⟨p, hp⟩ := Option.isSome_iff_exists.mp hsome.symm
    rw [hp]
    refine congrArg some (Overloads.ext fun r => ?_)
    rw [hs.mem ho, ht.mem hp, h]

/-! ## Resolving -/

theorem supports_iff_find? {s : Signatures} {n : ExpandedName} {arity : Nat} :
    s.supports n arity ↔ ∃ r, s.find? n arity = some r := by
  unfold supports find?
  cases s.overloads? n with
  | none => simp
  | some o => simp [Overloads.find?, ← Option.isSome_iff_exists]

theorem Tracks.supports_iff {s : Signatures} {registrations : List (ExpandedName × ArityRange)}
    (h : s.Tracks registrations) {n : ExpandedName} {arity : Nat} :
    s.supports n arity ↔ ∃ r, (n, r) ∈ registrations ∧ r.contains arity := by
  have hranges : s.supports n arity
      = ((s.overloads? n).getD .none).ranges.any (·.contains arity) := by
    unfold supports
    cases s.overloads? n with
    | none => rfl
    | some o => rfl
  simp only [hranges, List.any_eq_true, h.mem_getD]

/-- What is found is registered, accepts the arity, and is more specific than everything else that
is registered under the name and accepts the arity. -/
theorem Tracks.find?_eq_some {s : Signatures} {registrations : List (ExpandedName × ArityRange)}
    (h : s.Tracks registrations) {n : ExpandedName} {arity : Nat} {r : ArityRange}
    (hfind : s.find? n arity = some r) :
    (n, r) ∈ registrations ∧ r.contains arity ∧
      ∀ t, (n, t) ∈ registrations → t.contains arity → t ≠ r → r.moreSpecific t := by
  obtain ⟨o, ho, hr⟩ := Option.bind_eq_some_iff.mp hfind
  rw [Overloads.find?] at hr
  have harity := List.find?_some hr
  refine ⟨(h.mem ho r).mp (List.mem_of_find?_eq_some hr), harity, ?_⟩
  intro t ht harity hne
  exact o.ordered.find?_moreSpecific hr ((h.mem ho t).mpr ht) harity hne

theorem resolveExactly_eq_ok {s : Signatures} {n : ExpandedName} {arity : Nat}
    {f : ResolvedFunction} :
    s.resolveExactly n arity = .ok f ↔ ∃ r, s.find? n arity = some r ∧ f = ⟨n, r⟩ := by
  unfold resolveExactly find?
  cases s.overloads? n with
  | none => simp
  | some o =>
    cases hfind : o.find? arity with
    | none => simp [hfind]
    | some r => simp [hfind, eq_comm]

/-- The name whose overloads a call is looked up in: the name itself, if it has no namespace and
accepts the arity, and otherwise the name in the default namespace. -/
def calledName (s : Signatures) (name : ExpandedName) (arity : Nat)
    (defaultUri : Option String) : ExpandedName :=
  if name.uri = none ∧ s.supports name arity then name else effectiveName name defaultUri

theorem resolve_eq (s : Signatures) (name : ExpandedName) (arity : Nat)
    (defaultUri : Option String) :
    s.resolve name arity defaultUri
      = s.resolveExactly (s.calledName name arity defaultUri) arity := by
  unfold resolve calledName
  split
  · next range huri hfind =>
      have hsupports : s.supports name arity := supports_iff_find?.mpr ⟨range, hfind⟩
      rw [if_pos ⟨huri, hsupports⟩]
      exact (resolveExactly_eq_ok.mpr ⟨range, hfind, rfl⟩).symm
  · next hother =>
      rw [if_neg]
      rintro ⟨huri, hsupports⟩
      obtain ⟨range, hfind⟩ := supports_iff_find?.mp hsupports
      exact hother range huri hfind

theorem supports_calledName {s : Signatures} {name : ExpandedName} {arity : Nat}
    {defaultUri : Option String} :
    s.supports (s.calledName name arity defaultUri) arity ↔
      name.uri = none ∧ s.supports name arity ∨
        s.supports (effectiveName name defaultUri) arity := by
  unfold calledName
  split
  · next h => simp [h]
  · next h => simp [h]

theorem resolve_congr {s t : Signatures} (h : ∀ n, s.overloads? n = t.overloads? n)
    (name : ExpandedName) (arity : Nat) (defaultUri : Option String) :
    s.resolve name arity defaultUri = t.resolve name arity defaultUri := by
  simp only [resolve, find?, resolveExactly, h]

/-- However functions are registered, a call is resolved the same way, and it is resolved exactly if
a registered overload accepts the arity: one of the name itself, if that has no namespace, or else
one of the name in the default namespace. The overload taken is the one with the greatest minimum
and, at equal minima, the least maximum. -/
theorem resolve_most_specific (registrations : List (ExpandedName × ArityRange))
    (name : ExpandedName) (arity : Nat) (defaultUri : Option String) :
    (∀ registrations', registrations'.Perm registrations →
      (ofRegistrations registrations').resolve name arity defaultUri
        = (ofRegistrations registrations).resolve name arity defaultUri) ∧
    (∀ n, (ofRegistrations registrations).supports n arity ↔
      ∃ r, (n, r) ∈ registrations ∧ r.contains arity) ∧
    ((∃ f, (ofRegistrations registrations).resolve name arity defaultUri = .ok f) ↔
      name.uri = none ∧ (ofRegistrations registrations).supports name arity ∨
        (ofRegistrations registrations).supports (effectiveName name defaultUri) arity) ∧
    ∀ f, (ofRegistrations registrations).resolve name arity defaultUri = .ok f →
      f.name = (if name.uri = none ∧ (ofRegistrations registrations).supports name arity then name
        else effectiveName name defaultUri) ∧
      (f.name, f.arity) ∈ registrations ∧ f.arity.contains arity ∧
      ∀ r, (f.name, r) ∈ registrations → r.contains arity → r ≠ f.arity →
        r.min < f.arity.min ∨ r.min = f.arity.min ∧
          (r.max = none ∨ ∃ a b, f.arity.max = some a ∧ r.max = some b ∧ a < b) := by
  have htracks := tracks_ofRegistrations registrations
  refine ⟨?_, fun n => htracks.supports_iff, ?_, ?_⟩
  · intro registrations' hperm
    have htracks' := tracks_ofRegistrations registrations'
    exact resolve_congr (htracks'.overloads?_eq htracks fun p => hperm.mem_iff) _ _ _
  · rw [← supports_calledName, resolve_eq, supports_iff_find?]
    simp only [resolveExactly_eq_ok]
    constructor
    · rintro ⟨_, r, hfind, _⟩
      exact ⟨r, hfind⟩
    · rintro ⟨r, hfind⟩
      exact ⟨_, r, hfind, rfl⟩
  · intro f hf
    rw [resolve_eq] at hf
    obtain ⟨range, hfind, rfl⟩ := resolveExactly_eq_ok.mp hf
    obtain ⟨hmem, harity, hbest⟩ := htracks.find?_eq_some hfind
    refine ⟨rfl, hmem, harity, ?_⟩
    intro r hr hcontains hne
    rcases ArityRange.moreSpecific_iff.mp (hbest r hr hcontains hne) with hlt | ⟨heq, a, ha, hmax⟩
    · exact .inl hlt
    · refine .inr ⟨heq.symm, ?_⟩
      cases hrmax : r.max with
      | none => exact .inl rfl
      | some b => exact .inr ⟨a, b, ha, rfl, hmax b hrmax⟩

/-- Of a bounded and an unbounded range with the same minimum the bounded one is taken, also where
it was registered first. -/
theorem resolve_most_specific_overlap :
    (ofRegistrations [(⟨none, "f"⟩, ⟨1, none⟩), (⟨none, "f"⟩, ⟨0, some 9⟩),
        (⟨none, "f"⟩, ⟨1, some 3⟩)]).resolve ⟨none, "f"⟩ 2 (some "urn:x")
      = .ok ⟨⟨none, "f"⟩, ⟨1, some 3⟩⟩ ∧
    (ofRegistrations [(⟨none, "f"⟩, ⟨1, some 3⟩), (⟨none, "f"⟩, ⟨0, some 9⟩),
        (⟨none, "f"⟩, ⟨1, none⟩)]).resolve ⟨none, "f"⟩ 2 (some "urn:x")
      = .ok ⟨⟨none, "f"⟩, ⟨1, some 3⟩⟩ := by
  have hresolve : (ofRegistrations [(⟨none, "f"⟩, ⟨1, none⟩), (⟨none, "f"⟩, ⟨0, some 9⟩),
      (⟨none, "f"⟩, ⟨1, some 3⟩)]).resolve ⟨none, "f"⟩ 2 (some "urn:x")
      = .ok ⟨⟨none, "f"⟩, ⟨1, some 3⟩⟩ := rfl
  refine ⟨hresolve, ?_⟩
  rw [← hresolve]
  refine (resolve_most_specific _ ⟨none, "f"⟩ 2 (some "urn:x")).1 _ ?_
  decide +kernel

end Signatures

end XQuery
