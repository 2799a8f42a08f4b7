import XQuery.Context.Static

/-!
# Namespace bindings of a context

Whatever else is set in between, a prefix stands for what its last binding
says, or, if it has none, for what it stood for from the start
(`Context.binds_build`). The prefixes `xml` and `xmlns` keep their meaning, and
no prefix ever stands for the empty URI (`Context.Binds.ne_empty`).
-/

namespace XQuery

namespace Bindings

theorem lookup_cons (p q uri : String) (pairs : List (String × String)) :
    ((q, uri) :: pairs).lookup p = if p = q then some uri else pairs.lookup p := by
  rw [List.lookup_cons]
  by_cases hp : p = q
  · simp [hp]
  · simp [hp, beq_eq_false_iff_ne.mpr hp]

theorem get?_erase (b : Bindings) (pre p : String) :
    (b.erase pre).get? p = if p = pre then none else b.get? p := by
  obtain ⟨pairs⟩ := b
  simp only [erase, get?]
  induction pairs with
  | nil => simp
  | cons pair pairs ih =>
    obtain ⟨q, uri⟩ := pair
    by_cases hq : q = pre
    · subst hq
      rw [List.filter_cons_of_neg (by simp), ih, lookup_cons]
      by_cases hp : p = q
      · simp [hp]
      · simp [hp]
    · rw [List.filter_cons_of_pos (by simpa using hq), lookup_cons, lookup_cons, ih]
      by_cases hp : p = q
      · simp [hp, hq]
      · simp [hp]

theorem get?_insert (b : Bindings) (pre uri p : String) :
    (b.insert pre uri).get? p = if p = pre then some uri else b.get? p := by
  have hinsert : (b.insert pre uri).get? p = if p = pre then some uri else (b.erase pre).get? p :=
    lookup_cons p pre uri (b.erase pre).pairs
  rw [hinsert, get?_erase]
  by_cases hp : p = pre
  · simp [hp]
  · simp [hp]

end Bindings

namespace Context

/-! ## Settings -/

/-- A setting of a context. -/
inductive Setting where
  | binding (pre uri : String)
  | defaultElementUri (uri : String)
  | defaultFunctionUri (uri : String)
  | declared (name : ExpandedName)
  | signatures (signatures : Signatures)

/-- The prefix and the URI of a binding. -/
def Setting.binding? : Setting → Option (String × String)
  | .binding pre uri => some (pre, uri)
  | _ => none

/-- The context with one more setting. -/
def set (c : Context) : Setting → Context
  | .binding pre uri => c.withNamespace pre uri
  | .defaultElementUri uri => c.withDefaultElementUri uri
  | .defaultFunctionUri uri => c.withDefaultFunctionUri uri
  | .declared name => c.withVariable name
  | .signatures signatures => c.withSignatures signatures

/-- The context with these settings, made one after the other. -/
def build (settings : List Setting) : Context := settings.foldl set {}

/-! ## Bound prefixes -/

/-- What a prefix stands for after these bindings, made one after the other. The prefixes `xml` and
`xmlns` cannot be bound. For every other one its last binding decides, where an empty URI leaves it
unbound, and without a binding it keeps its predefined meaning. -/
def boundUri? (bindings : List (String × String)) (pre : String) : Option String :=
  if pre = "xml" then some Namespace.xml
  else if pre = "xmlns" then none
  else
    match bindings.reverse.lookup pre with
    | some uri => if uri = "" then none else some uri
    | none => Namespace.predefined.lookup pre

theorem predefined_ne_empty (pre : String) : Namespace.predefined.lookup pre ≠ some "" := by
  intro h
  obtain ⟨before, after, heq, _⟩ := List.lookup_eq_some_iff.mp h
  have hmem : (pre, "") ∈ Namespace.predefined := by simp [heq]
  have hall : ∀ p ∈ Namespace.predefined, p.2 ≠ "" := by decide
  exact hall _ hmem rfl

theorem boundUri?_ne_empty (bindings : List (String × String)) (pre : String) :
    boundUri? bindings pre ≠ some "" := by
  unfold boundUri?
  split
  · decide
  · split
    · simp
    · split
      · next uri _ =>
          by_cases huri : uri = ""
          · simp [huri]
          · simp [huri]
      · exact predefined_ne_empty pre

/-- One more binding counts for its own prefix alone, and for that only if it can be bound. -/
theorem boundUri?_concat (bindings : List (String × String)) (p uri pre : String) :
    boundUri? (bindings ++ [(p, uri)]) pre =
      if pre = p ∧ p ≠ "xml" ∧ p ≠ "xmlns" then (if uri = "" then none else some uri)
      else boundUri? bindings pre := by
  simp only [boundUri?, List.reverse_append, List.reverse_singleton, List.singleton_append,
    Bindings.lookup_cons]
  by_cases hp : pre = p
  · subst hp
    by_cases hxml : pre = "xml"
    · simp [hxml]
    · by_cases hxmlns : pre = "xmlns"
      · simp [hxmlns]
      · simp [hxml, hxmlns]
  · simp [hp]

theorem resolvePrefix?_withNamespace (c : Context) (p uri pre : String) :
    (c.withNamespace p uri).resolvePrefix? pre =
      if pre = p ∧ p ≠ "xml" ∧ p ≠ "xmlns" then (if uri = "" then none else some uri)
      else c.resolvePrefix? pre := by
  unfold withNamespace
  split
  · next hreserved =>
      rw [if_neg]
      rintro ⟨_, hxml, hxmlns⟩
      exact hreserved.elim hxml hxmlns
  · next hfree =>
      obtain ⟨hxml, hxmlns⟩ := not_or.mp hfree
      by_cases huri : uri = ""
      · rw [if_pos huri]
        show (c.namespaces.erase p).get? pre = _
        simp [Bindings.get?_erase, hxml, hxmlns, huri, resolvePrefix?]
      · rw [if_neg huri]
        show (c.namespaces.insert p uri).get? pre = _
        simp [Bindings.get?_insert, hxml, hxmlns, huri, resolvePrefix?]

/-- The prefixes stand for what the bindings say. -/
def Binds (c : Context) (bindings : List (String × String)) : Prop :=
  ∀ pre, c.resolvePrefix? pre = boundUri? bindings pre

theorem binds_default : ({} : Context).Binds [] := by
  intro pre
  unfold boundUri?
  split
  · next h =>
      rw [h]
      rfl
  · split
    · next h =>
        rw [h]
        rfl
    · rfl

theorem Binds.set {c : Context} {bindings : List (String × String)} (h : c.Binds bindings)
    (setting : Setting) : (c.set setting).Binds (bindings ++ setting.binding?.toList) := by
  cases setting with
  | binding p uri =>
    intro pre
    show (c.withNamespace p uri).resolvePrefix? pre = boundUri? (bindings ++ [(p, uri)]) pre
    rw [resolvePrefix?_withNamespace, boundUri?_concat, h pre]
  | _ =>
    show Binds _ (bindings ++ [])
    rw [List.append_nil]
    exact h

theorem Binds.foldl {c : Context} {bindings : List (String × String)} (h : c.Binds bindings)
    (settings : List Setting) :
    (settings.foldl Context.set c).Binds (bindings ++ settings.filterMap Setting.binding?) := by
  induction settings generalizing c bindings with
  | nil => simpa using h
  | cons setting settings ih =>
    have hstep := ih (h.set setting)
    rw [List.append_assoc] at hstep
    have hcons : (setting :: settings).filterMap Setting.binding?
        = setting.binding?.toList ++ settings.filterMap Setting.binding? := by
      rw [List.filterMap_cons]
      cases setting.binding? with
      | none => rfl
      | some binding => rfl
    rw [hcons]
    exact hstep

theorem binds_build (settings : List Setting) :
    (build settings).Binds (settings.filterMap Setting.binding?) := by
  have h := binds_default.foldl settings
  rw [List.nil_append] at h
  exact h

theorem Binds.ne_empty {c : Context} {bindings : List (String × String)} (h : c.Binds bindings)
    (pre : String) : c.resolvePrefix? pre ≠ some "" := by
  rw [h pre]
  exact boundUri?_ne_empty bindings pre

end Context

end XQuery
