import Mathlib.Data.List.Forall2
import XQuery.Command.Run
import XQuery.Proofs.Context.Bindings
import XQuery.Proofs.Name.RoundTrip

/-!
# Expanding names on the command line

The command `qname` expands names in the context that is built of its
bindings, each of which is split at its first `=`. It fails exactly if a name
is none, a binding cannot be split or does not start with a prefix, or a name
has a prefix that the bindings leave unbound
(`Command.last_binding_decides`).
-/

namespace XQuery

/-! ## Failing -/

/-- There is no result. -/
def Fails {ε α : Type} (e : Except ε α) : Prop := ∃ failure, e = .error failure

section Failing

variable {ε ε' α β : Type}

theorem not_fails_ok (a : α) : ¬Fails (.ok a : Except ε α) := by
  rintro ⟨failure, h⟩
  cases h

theorem not_fails_pure (a : α) : ¬Fails (pure a : Except ε α) := not_fails_ok a

theorem fails_error (failure : ε) : Fails (.error failure : Except ε α) := ⟨failure, rfl⟩

theorem fails_mapError {e : Except ε α} {f : ε → ε'} : Fails (e.mapError f) ↔ Fails e := by
  cases e with
  | ok a => exact iff_of_false (not_fails_ok a) (not_fails_ok a)
  | error failure => exact iff_of_true (fails_error _) (fails_error _)

theorem mapError_eq_ok {e : Except ε α} {f : ε → ε'} {a : α} :
    e.mapError f = .ok a ↔ e = .ok a := by
  cases e with
  | ok b => simp [Except.mapError]
  | error failure => simp [Except.mapError]

/-- The first part that fails decides. -/
theorem fails_bind {e : Except ε α} {f : α → Except ε β} :
    Fails (e >>= f) ↔ Fails e ∨ ∃ a, e = .ok a ∧ Fails (f a) := by
  cases e with
  | ok a =>
    show Fails (f a) ↔ _
    simp [not_fails_ok]
  | error failure => exact iff_of_true (fails_error _) (.inl (fails_error _))

theorem fails_or_exists {e : Except ε α} {p : Prop} :
    (Fails e ∨ ∃ a, e = .ok a ∧ p) ↔ Fails e ∨ p := by
  cases e with
  | ok a => simp
  | error failure => exact iff_of_true (.inl (fails_error _)) (.inl (fails_error _))

theorem bind_eq_ok {e : Except ε α} {f : α → Except ε β} {b : β} :
    e >>= f = .ok b ↔ ∃ a, e = .ok a ∧ f a = .ok b := by
  cases e with
  | ok a =>
    show f a = .ok b ↔ _
    simp
  | error failure =>
    show Except.error failure = .ok b ↔ _
    simp

theorem mapM_eq_ok {f : α → Except ε β} {xs : List α} {ys : List β} :
    xs.mapM f = .ok ys ↔ List.Forall₂ (fun x y => f x = .ok y) xs ys := by
  induction xs generalizing ys with
  | nil =>
    show Except.ok [] = Except.ok ys ↔ _
    simp [eq_comm]
  | cons x xs ih =>
    rw [List.mapM_cons, bind_eq_ok, List.forall₂_cons_left_iff]
    constructor
    · rintro ⟨y, hy, htail⟩
      obtain ⟨rest, hrest, heq⟩ := bind_eq_ok.mp htail
      cases heq
      exact ⟨y, rest, hy, ih.mp hrest, rfl⟩
    · rintro ⟨y, rest, hy, hrest, rfl⟩
      exact ⟨y, hy, bind_eq_ok.mpr ⟨rest, ih.mpr hrest, rfl⟩⟩

theorem fails_mapM {f : α → Except ε β} {xs : List α} :
    Fails (xs.mapM f) ↔ ∃ x ∈ xs, Fails (f x) := by
  induction xs with
  | nil => exact iff_of_false (not_fails_ok _) (by simp)
  | cons x xs ih =>
    rw [List.mapM_cons, fails_bind]
    simp only [fails_bind, ih, List.mem_cons, exists_eq_or_imp]
    constructor
    · rintro (hx | ⟨y, hy, hxs | ⟨ys, _, hok⟩⟩)
      · exact .inl hx
      · exact .inr hxs
      · exact absurd hok (not_fails_ok _)
    · rintro (hx | hxs)
      · exact .inl hx
      · cases hx : f x with
        | error failure => exact .inl (fails_error failure)
        | ok y => exact .inr ⟨y, rfl, .inl hxs⟩

end Failing

namespace Command

open Context

/-! ## Bindings -/

/-- The text is a prefix and a URI with the first `=` between them. -/
def Splits (text : String) (binding : String × String) : Prop :=
  text = binding.1 ++ "=" ++ binding.2 ∧ '=' ∉ binding.1.toList

theorem splitAtFirst?_eq_some {text pre uri : String} :
    Text.splitAtFirst? (· == '=') text.toList = some (pre.toList, uri.toList) ↔
      Splits text (pre, uri) := by
  rw [Text.splitAtFirst?_beq_eq_some, Splits, ← String.toList_inj, and_comm]
  simp

theorem exists_splits {text : String} (h : '=' ∈ text.toList) : ∃ binding, Splits text binding := by
  cases hsplit : Text.splitAtFirst? (· == '=') text.toList with
  | none => exact absurd h (Text.splitAtFirst?_beq_eq_none.mp hsplit)
  | some parts =>
    refine ⟨(String.ofList parts.1, String.ofList parts.2), splitAtFirst?_eq_some.mp ?_⟩
    simpa using hsplit

theorem splits_unique : Relator.RightUnique Splits := by
  intro text b b' h h'
  have hsplit := (splitAtFirst?_eq_some.mpr h).symm.trans (splitAtFirst?_eq_some.mpr h')
  simp only [Option.some.injEq, Prod.mk.injEq, String.toList_inj] at hsplit
  exact Prod.ext hsplit.1 hsplit.2

theorem parseBinding_of_splits {text : String} {binding : String × String}
    (h : Splits text binding) :
    parseBinding text =
      if isNCName binding.1.toList then .ok binding else .error (.invalidPrefix binding.1) := by
  rw [parseBinding, splitAtFirst?_eq_some.mpr h]
  simp

theorem parseBinding_of_not_mem {text : String} (h : '=' ∉ text.toList) :
    parseBinding text = .error (.bindingWithoutUri text) := by
  rw [parseBinding, Text.splitAtFirst?_beq_eq_none.mpr h]

theorem parseBinding_eq_ok {text : String} {binding : String × String} :
    parseBinding text = .ok binding ↔ Splits text binding ∧ isNCName binding.1.toList := by
  constructor
  · intro h
    by_cases hmem : '=' ∈ text.toList
    · obtain ⟨split, hsplit⟩ := exists_splits hmem
      rw [parseBinding_of_splits hsplit] at h
      by_cases hname : isNCName split.1.toList = true
      · rw [if_pos hname] at h
        cases h
        exact ⟨hsplit, hname⟩
      · rw [if_neg hname] at h
        cases h
    · rw [parseBinding_of_not_mem hmem] at h
      cases h
  · rintro ⟨hsplit, hname⟩
    rw [parseBinding_of_splits hsplit, if_pos hname]

theorem fails_parseBinding {text : String} :
    Fails (parseBinding text) ↔
      '=' ∉ text.toList ∨ ∃ binding, Splits text binding ∧ isNCName binding.1.toList = false := by
  constructor
  · intro hfails
    by_cases hmem : '=' ∈ text.toList
    · obtain ⟨binding, hsplit⟩ := exists_splits hmem
      refine .inr ⟨binding, hsplit, ?_⟩
      rw [parseBinding_of_splits hsplit] at hfails
      by_contra hname
      rw [if_pos (by simpa using hname)] at hfails
      exact not_fails_ok _ hfails
    · exact .inl hmem
  · rintro (hmem | ⟨binding, hsplit, hname⟩)
    · rw [parseBinding_of_not_mem hmem]
      exact fails_error _
    · rw [parseBinding_of_splits hsplit, if_neg (by simp [hname])]
      exact fails_error _

/-! ## The context -/

/-- The settings that the options ask for, with the bindings taken apart. -/
def settings (bindings : List (String × String)) (defaultElementUri : Option String) :
    List Setting :=
  bindings.map (fun binding => .binding binding.1 binding.2) ++
    (defaultElementUri.map .defaultElementUri).toList

theorem filterMap_settings (bindings : List (String × String)) (defaultElementUri : Option String) :
    (settings bindings defaultElementUri).filterMap Setting.binding? = bindings := by
  cases defaultElementUri with
  | none => simp [settings, Setting.binding?, List.filterMap_map, Function.comp_def]
  | some uri => simp [settings, Setting.binding?, List.filterMap_map, Function.comp_def]

theorem nameContext_eq_ok {o : QNameOptions} {c : Context} :
    nameContext o = .ok c ↔ ∃ bindings,
      List.Forall₂ (fun text binding => Splits text binding ∧ isNCName binding.1.toList)
        o.namespaces bindings ∧
      c = build (settings bindings o.defaultElementUri) := by
  rw [nameContext, bind_eq_ok]
  simp only [mapM_eq_ok, parseBinding_eq_ok]
  refine exists_congr fun bindings => and_congr_right fun _ => ?_
  have hbuild : build (settings bindings o.defaultElementUri)
      = (o.defaultElementUri.map Setting.defaultElementUri).toList.foldl Context.set
          (bindings.foldl (fun c binding => c.withNamespace binding.1 binding.2) {}) := by
    rw [build, settings, List.foldl_append, List.foldl_map]
    rfl
  rw [hbuild]
  cases o.defaultElementUri with
  | none =>
    show Except.ok _ = Except.ok c ↔ _
    simp [eq_comm]
  | some uri =>
    show Except.ok _ = Except.ok c ↔ _
    simp [eq_comm, Context.set]

theorem fails_nameContext {o : QNameOptions} :
    Fails (nameContext o) ↔ ∃ text ∈ o.namespaces,
      '=' ∉ text.toList ∨ ∃ binding, Splits text binding ∧ isNCName binding.1.toList = false := by
  simp only [nameContext, fails_bind, fails_mapM, fails_parseBinding]
  refine or_iff_left ?_
  rintro ⟨bindings, _, hok⟩
  exact not_fails_ok _ hok

/-- The prefixes stand for what the bindings say, however else the context is set. -/
theorem binds_nameContext {o : QNameOptions} {c : Context} (h : nameContext o = .ok c) :
    ∃ bindings, List.Forall₂ Splits o.namespaces bindings ∧ c.Binds bindings := by
  obtain ⟨bindings, hsplits, rfl⟩ := nameContext_eq_ok.mp h
  refine ⟨bindings, hsplits.imp fun _ _ hsplit => hsplit.1, ?_⟩
  have hbinds := binds_build (settings bindings o.defaultElementUri)
  rw [filterMap_settings] at hbinds
  exact hbinds

/-! ## Expanding -/

/-- A name cannot be expanded exactly if it has a prefix that stands for nothing. -/
theorem fails_expand {n : QName} (hn : n.WellFormed) {c : Context}
    {bindings : List (String × String)} (hc : c.Binds bindings) {kind : NameKind} :
    Fails (n.expand c kind) ↔
      ∃ pre localName, n = .lexical (some pre) localName ∧ boundUri? bindings pre = none := by
  cases hlexical : n.isLexical with
  | false =>
    rw [QName.expand, hlexical]
    refine iff_of_false (not_fails_ok _) ?_
    rintro ⟨pre, localName, rfl, -⟩
    cases hlexical
  | true =>
    rw [hn.eq_lexical hlexical]
    generalize n.localName = localName
    cases n.pre with
    | none => exact iff_of_false (not_fails_ok _) (by simp [QName.lexical])
    | some pre =>
      cases hbound : boundUri? bindings pre with
      | some uri =>
        have hexpand : (QName.lexical (some pre) localName).expand c kind
            = .ok (.inNamespace (some uri) (some pre) localName) := by
          simp [QName.expand, QName.lexical, hc pre, hbound]
        rw [hexpand]
        exact iff_of_false (not_fails_ok _) (by simp [QName.lexical, hbound])
      | none =>
        have hexpand : (QName.lexical (some pre) localName).expand c kind
            = .error (.undeclaredPrefix pre) := by
          simp [QName.expand, QName.lexical, hc pre, hbound]
        rw [hexpand]
        exact iff_of_true (fails_error _) ⟨pre, localName, rfl, hbound⟩

/-- Both names are read first, then the bindings, and then the names are expanded. -/
theorem fails_comparison {o : QNameOptions} {kind : NameKind} (h : o.expand = some kind) :
    Fails (comparison o) ↔
      Fails (QName.parse o.left) ∨ ∃ left, QName.parse o.left = .ok left ∧
      (Fails (QName.parse o.right) ∨ ∃ right, QName.parse o.right = .ok right ∧
      (Fails (nameContext o) ∨ ∃ c, nameContext o = .ok c ∧
      (Fails (left.expand c kind) ∨ Fails (right.expand c kind)))) := by
  simp only [comparison, h, fails_bind, fails_mapError, mapError_eq_ok, not_fails_pure, and_false,
    exists_false, or_false, fails_or_exists]

theorem fails_execute {o : QNameOptions} (read : String → Except ReadError String) (colors : Bool) :
    Fails ((Command.qname o).execute read colors) ↔ Fails (comparison o) := by
  rw [execute, fails_bind]
  refine or_iff_left ?_
  rintro ⟨c, _, hok⟩
  exact not_fails_ok _ hok

/-- Whatever is set, `xml` stands for its namespace, `xmlns` for nothing, any other prefix for what
its last binding says or else for its predefined meaning, and none for the empty URI. This holds of
the context in which names are expanded, for the bindings that the options are split into. The
command fails exactly if a name cannot be read, a binding cannot be split or has no name in front,
or a name has a prefix that stands for nothing. -/
theorem last_binding_decides :
    (∀ settings pre,
      (build settings).resolvePrefix? pre = boundUri? (settings.filterMap Setting.binding?) pre ∧
      (build settings).resolvePrefix? pre ≠ some "") ∧
    ∀ (o : QNameOptions) (kind : NameKind), o.expand = some kind →
      (∀ c, nameContext o = .ok c → ∃ bindings, List.Forall₂ Splits o.namespaces bindings ∧
        ∀ pre, c.resolvePrefix? pre = boundUri? bindings pre ∧ c.resolvePrefix? pre ≠ some "") ∧
      ∀ read colors, Fails ((Command.qname o).execute read colors) ↔
        (∃ s ∈ [o.left, o.right], Fails (QName.parse s)) ∨
        (∃ text ∈ o.namespaces, '=' ∉ text.toList ∨
          ∃ binding, Splits text binding ∧ isNCName binding.1.toList = false) ∨
        ∃ bindings, List.Forall₂ Splits o.namespaces bindings ∧
          ∃ s ∈ [o.left, o.right], ∃ pre localName,
            QName.parse s = .ok (.lexical (some pre) localName) ∧
            boundUri? bindings pre = none := by
  refine ⟨fun settings pre => ⟨binds_build settings pre, (binds_build settings).ne_empty pre⟩, ?_⟩
  intro o kind hkind
  refine ⟨?_, fun read colors => ?_⟩
  · intro c hc
    obtain ⟨bindings, hsplits, hbinds⟩ := binds_nameContext hc
    exact ⟨bindings, hsplits, fun pre => ⟨hbinds pre, hbinds.ne_empty pre⟩⟩
  · rw [fails_execute, fails_comparison hkind, ← fails_nameContext]
    simp only [List.mem_cons, List.not_mem_nil, or_false, exists_eq_or_imp, exists_eq_left]
    cases hleft : QName.parse o.left with
    | error fault => exact iff_of_true (.inl (fails_error _)) (.inl (.inl (fails_error _)))
    | ok left =>
      cases hright : QName.parse o.right with
      | error fault =>
        refine iff_of_true (.inr ⟨left, rfl, .inl (fails_error _)⟩) (.inl (.inr (fails_error _)))
      | ok right =>
        cases hc : nameContext o with
        | error failure =>
          refine iff_of_true (.inr ⟨left, rfl, .inr ⟨right, rfl, .inl (fails_error _)⟩⟩) ?_
          exact .inr (.inl (fails_error _))
        | ok c =>
          obtain ⟨bindings, hsplits, hbinds⟩ := binds_nameContext hc
          simp only [not_fails_ok, false_or, Except.ok.injEq, exists_eq_left',
            fails_expand (QName.wellFormed_of_parse hleft) hbinds,
            fails_expand (QName.wellFormed_of_parse hright) hbinds]
          constructor
          · intro hunbound
            exact ⟨bindings, hsplits, hunbound⟩
          · rintro ⟨bindings', hsplits', hunbound⟩
            cases List.right_unique_forall₂' splits_unique hsplits hsplits'
            exact hunbound

/-- The URI keeps its own `=`. The first binding of `p` is taken back by the last, so that the name
with this prefix cannot be expanded. -/
theorem last_binding_decides_removed :
    let o : QNameOptions :=
      { left := "q:a", right := "p:a", expand := some .element,
        namespaces := ["p=urn:p", "q=urn:a=b", "p="] }
    ∃ c, nameContext o = .ok c ∧ c.resolvePrefix? "q" = some "urn:a=b" ∧
      c.resolvePrefix? "p" = none ∧
      ∀ read colors, Fails ((Command.qname o).execute read colors) := by
  intro o
  let bindings : List (String × String) := [("p", "urn:p"), ("q", "urn:a=b"), ("p", "")]
  have hsplits : List.Forall₂ (fun text binding => Splits text binding ∧ isNCName binding.1.toList)
      o.namespaces bindings := by
    unfold Splits
    decide +kernel
  have hc : nameContext o = .ok (build (settings bindings none)) :=
    nameContext_eq_ok.mpr ⟨bindings, hsplits, rfl⟩
  have hsplits' : List.Forall₂ Splits o.namespaces bindings :=
    hsplits.imp fun _ _ hsplit => hsplit.1
  have hright : QName.parse o.right = .ok (.lexical (some "p") "a") := by decide +kernel
  obtain ⟨hbound, hfails⟩ := last_binding_decides.2 o .element rfl
  obtain ⟨bindings', hread, hresolve⟩ := hbound _ hc
  cases List.right_unique_forall₂' splits_unique hsplits' hread
  refine ⟨_, hc, (hresolve "q").1.trans (by decide), (hresolve "p").1.trans (by decide), ?_⟩
  intro read colors
  rw [hfails read colors]
  exact .inr (.inr ⟨bindings, hsplits', o.right, by simp, "p", "a", hright, by decide⟩)

end Command

end XQuery
