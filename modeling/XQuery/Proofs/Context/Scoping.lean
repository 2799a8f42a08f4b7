import Mathlib.Data.List.Forall2
import Mathlib.Data.List.Infix
import XQuery.Context.Scopes

/-!
# Lexical scoping

A reference reads the innermost scope that binds the variable. Which scopes
are open, and which of them a call binds a variable in, is read off the calls
alone: a scope is known by the call that opened it, and a call binds a
variable in the scope that is then the innermost one. What is bound between a
call that opens a scope and the one that closes it again is forgotten
(`Scopes.resolve_lexical`).
-/

namespace XQuery

namespace Scopes

/-! ## Calls -/

/-- A call that changes the scopes. -/
inductive Call where
  | enter
  | exit
  | bind (name : ExpandedName)
deriving DecidableEq

/-- The scopes after a call. -/
def call (s : Scopes) : Call → Scopes
  | .enter => s.enter
  | .exit => s.exit.2
  | .bind name => s.bind name

/-- The scopes after some calls. -/
def run (s : Scopes) (calls : List Call) : Scopes := calls.foldl call s

theorem run_take_succ (s : Scopes) {calls : List Call} {n : Nat} {c : Call}
    (h : calls[n]? = some c) : s.run (calls.take (n + 1)) = (s.run (calls.take n)).call c := by
  simp [run, List.take_add_one, h]

/-! ## Open scopes -/

/-- The scopes that are open after the first `n` calls, the innermost one first. A scope is known by
the place of the call that opened it. -/
def openScopes (calls : List Call) : Nat → List Nat
  | 0 => []
  | n + 1 =>
      match calls[n]? with
      | some .enter => n :: openScopes calls n
      | some .exit => (openScopes calls n).tail
      | some (.bind _) => if openScopes calls n = [] then [n] else openScopes calls n
      | none => openScopes calls n

variable {calls : List Call} {n k : Nat} {name : ExpandedName}

theorem openScopes_enter (h : calls[n]? = some .enter) :
    openScopes calls (n + 1) = n :: openScopes calls n := by
  simp [openScopes, h]

theorem openScopes_exit (h : calls[n]? = some .exit) :
    openScopes calls (n + 1) = (openScopes calls n).tail := by
  simp [openScopes, h]

theorem openScopes_bind (h : calls[n]? = some (.bind name)) :
    openScopes calls (n + 1) = if openScopes calls n = [] then [n] else openScopes calls n := by
  simp [openScopes, h]

theorem openScopes_none (h : calls[n]? = none) :
    openScopes calls (n + 1) = openScopes calls n := by
  simp [openScopes, h]

/-- A call opens no scope but its own, which is then the innermost one. -/
theorem openScopes_sublist (calls : List Call) (n : Nat) :
    (openScopes calls (n + 1)).Sublist (n :: openScopes calls n) := by
  cases hcall : calls[n]? with
  | none =>
    rw [openScopes_none hcall]
    exact List.sublist_cons_self n _
  | some c =>
    cases c with
    | enter =>
      rw [openScopes_enter hcall]
    | exit =>
      rw [openScopes_exit hcall]
      exact (List.tail_sublist _).cons n
    | bind name =>
      rw [openScopes_bind hcall]
      split
      · exact (List.nil_sublist _).cons_cons n
      · exact List.sublist_cons_self n _

/-- Scopes are opened one after the other, the innermost one last. -/
theorem pairwise_openScopes (calls : List Call) (n : Nat) :
    (n :: openScopes calls n).Pairwise (· > ·) := by
  induction n with
  | zero => exact List.pairwise_singleton _ _
  | succ n ih =>
    have hsublist := openScopes_sublist calls n
    refine List.pairwise_cons.mpr ⟨fun k hk => ?_, ih.sublist hsublist⟩
    rcases List.mem_cons.mp (hsublist.subset hk) with rfl | hold
    · exact Nat.lt_succ_self k
    · exact Nat.lt_succ_of_lt ((List.pairwise_cons.mp ih).1 k hold)

theorem lt_of_mem_openScopes (h : k ∈ openScopes calls n) : k < n :=
  (List.pairwise_cons.mp (pairwise_openScopes calls n)).1 k h

/-! ## Bindings -/

/-- One of the first `n` calls bound the variable while the scope was the innermost one. -/
def BoundIn (calls : List Call) (n k : Nat) (name : ExpandedName) : Prop :=
  ∃ i < n, calls[i]? = some (.bind name) ∧ (openScopes calls (i + 1)).head? = some k

theorem boundIn_succ :
    BoundIn calls (n + 1) k name ↔ BoundIn calls n k name ∨
      calls[n]? = some (.bind name) ∧ (openScopes calls (n + 1)).head? = some k := by
  constructor
  · rintro ⟨i, hi, hbind⟩
    rcases Nat.lt_succ_iff_lt_or_eq.mp hi with hlt | rfl
    · exact .inl ⟨i, hlt, hbind⟩
    · exact .inr hbind
  · rintro (⟨i, hi, hbind⟩ | hbind)
    · exact ⟨i, Nat.lt_succ_of_lt hi, hbind⟩
    · exact ⟨n, Nat.lt_succ_self n, hbind⟩

/-- Nothing is bound in a scope before it is opened. -/
theorem BoundIn.lt (h : BoundIn calls n k name) : k < n := by
  obtain ⟨i, hi, _, hhead⟩ := h
  have hmem := List.mem_of_mem_head? (Option.mem_def.mpr hhead)
  exact Nat.lt_of_lt_of_le (lt_of_mem_openScopes hmem) hi

/-- Only a call that binds changes what is bound. -/
theorem boundIn_succ_of_ne (h : ∀ name, calls[n]? ≠ some (.bind name)) :
    BoundIn calls (n + 1) k name ↔ BoundIn calls n k name := by
  rw [boundIn_succ]
  exact or_iff_left fun hbind => h name hbind.1

/-- The scopes hold what has been bound in them. -/
def Reflects (s : Scopes) (calls : List Call) (n : Nat) : Prop :=
  List.Forall₂ (fun k scope => ∀ name, name ∈ scope ↔ BoundIn calls n k name)
    (openScopes calls n) s.scopes

theorem Reflects.enter {s : Scopes} (h : s.Reflects calls n) (hcall : calls[n]? = some .enter) :
    s.enter.Reflects calls (n + 1) := by
  have hsame : ∀ {k name}, BoundIn calls (n + 1) k name ↔ BoundIn calls n k name :=
    boundIn_succ_of_ne (by simp [hcall])
  unfold Reflects
  rw [openScopes_enter hcall]
  refine .cons ?_ (h.imp ?_)
  · intro name
    rw [hsame]
    constructor
    · intro hmem
      cases hmem
    · intro hbound
      exact absurd hbound.lt (Nat.lt_irrefl n)
  · intro k scope hscope name
    rw [hsame]
    exact hscope name

theorem Reflects.exit {s : Scopes} (h : s.Reflects calls n) (hcall : calls[n]? = some .exit) :
    s.exit.2.Reflects calls (n + 1) := by
  have hsame : ∀ {k name}, BoundIn calls (n + 1) k name ↔ BoundIn calls n k name :=
    boundIn_succ_of_ne (by simp [hcall])
  obtain ⟨scopes⟩ := s
  unfold Reflects at *
  rw [openScopes_exit hcall]
  simp only [hsame]
  generalize openScopes calls n = opened at h
  cases h with
  | nil => exact .nil
  | cons _ houter => exact houter

theorem Reflects.bind {s : Scopes} {x : ExpandedName} (h : s.Reflects calls n)
    (hcall : calls[n]? = some (.bind x)) : (s.bind x).Reflects calls (n + 1) := by
  have hopen := openScopes_bind hcall
  have horder := (List.pairwise_cons.mp (pairwise_openScopes calls n)).2
  obtain ⟨scopes⟩ := s
  unfold Reflects at *
  cases hold : openScopes calls n with
  | nil =>
    rw [hold] at h hopen
    rw [if_pos rfl] at hopen
    cases h
    rw [hopen]
    refine .cons ?_ .nil
    intro name
    rw [boundIn_succ, hcall, hopen]
    have hfresh : ¬BoundIn calls n n name := fun hbound => Nat.lt_irrefl n hbound.lt
    simp [hfresh, eq_comm]
  | cons top ks =>
    rw [hold] at h hopen horder
    rw [if_neg (List.cons_ne_nil top ks)] at hopen
    cases h with
    | @cons _ scope _ outer hscope houter =>
      rw [hopen]
      refine .cons ?_ ?_
      · intro name
        rw [boundIn_succ, hcall, hopen, List.mem_cons, hscope name]
        simp [eq_comm, or_comm]
      · -- a scope outside was opened before the innermost one
        have houtside : ∀ k ∈ ks, k ≠ top := fun k hk =>
          Nat.ne_of_lt ((List.pairwise_cons.mp horder).1 k hk)
        refine ((List.forall₂_and_left ks outer).mpr ⟨houtside, houter⟩).imp ?_
        rintro k outside ⟨hne, houtside⟩ name
        rw [boundIn_succ, hopen, houtside name]
        simp [Ne.symm hne]

theorem Reflects.call {s : Scopes} {c : Call} (h : s.Reflects calls n)
    (hcall : calls[n]? = some c) : (s.call c).Reflects calls (n + 1) := by
  cases c with
  | enter => exact h.enter hcall
  | exit => exact h.exit hcall
  | bind name => exact h.bind hcall

/-- After every call of a sequence, the scopes hold what has been bound in them. -/
theorem reflects_run (calls : List Call) (hn : n ≤ calls.length) :
    (run {} (calls.take n)).Reflects calls n := by
  induction n with
  | zero => exact .nil
  | succ n ih =>
    have hcall : calls[n]? = some calls[n] := List.getElem?_eq_getElem hn
    rw [run_take_succ {} hcall]
    exact (ih (Nat.le_of_succ_le hn)).call hcall

/-! ## Resolving -/

/-- After the calls, the variable is bound in the scope that is `d` scopes away from the innermost
one: it was bound while that scope was the innermost one. -/
def BoundAt (calls : List Call) (d : Nat) (name : ExpandedName) : Prop :=
  ∃ k, (openScopes calls calls.length)[d]? = some k ∧ BoundIn calls calls.length k name

theorem boundAt_iff {d : Nat} :
    BoundAt calls d name ↔ ∃ scope, (run {} calls).scopes[d]? = some scope ∧ name ∈ scope := by
  have hreflects := reflects_run calls (Nat.le_refl _)
  rw [List.take_length] at hreflects
  obtain ⟨hlength, hmem⟩ := List.forall₂_iff_get.mp hreflects
  constructor
  · rintro ⟨k, hk, hbound⟩
    obtain ⟨hd, rfl⟩ := List.getElem?_eq_some_iff.mp hk
    have hd' := hlength ▸ hd
    exact ⟨_, List.getElem?_eq_getElem hd', (hmem d hd hd' name).mpr hbound⟩
  · rintro ⟨scope, hscope, hname⟩
    obtain ⟨hd, rfl⟩ := List.getElem?_eq_some_iff.mp hscope
    have hd' := hlength ▸ hd
    exact ⟨_, List.getElem?_eq_getElem hd', (hmem d hd' hd name).mp hname⟩

theorem findIdx?_eq_some {d : Nat} :
    (run {} calls).scopes.findIdx? (·.contains name) = some d ↔
      BoundAt calls d name ∧ ∀ i < d, ¬BoundAt calls i name := by
  simp only [boundAt_iff, List.findIdx?_eq_some_iff_getElem, List.getElem?_eq_some_iff,
    List.contains_eq_mem, decide_eq_true_eq]
  constructor
  · rintro ⟨hd, hname, hinner⟩
    refine ⟨⟨_, ⟨hd, rfl⟩, hname⟩, ?_⟩
    rintro i hi ⟨_, ⟨_, rfl⟩, hmem⟩
    exact hinner i hi hmem
  · rintro ⟨⟨_, ⟨hd, rfl⟩, hname⟩, hinner⟩
    refine ⟨hd, hname, ?_⟩
    intro i hi hmem
    exact hinner i hi ⟨_, ⟨_, rfl⟩, hmem⟩

theorem findIdx?_eq_none :
    (run {} calls).scopes.findIdx? (·.contains name) = none ↔ ∀ d, ¬BoundAt calls d name := by
  simp only [boundAt_iff, List.findIdx?_eq_none_iff, List.contains_eq_mem, decide_eq_false_iff_not]
  constructor
  · rintro hnone d ⟨scope, hscope, hmem⟩
    exact hnone scope (List.mem_of_getElem? hscope) hmem
  · intro hnone scope hscope hmem
    obtain ⟨d, hd⟩ := List.mem_iff_getElem?.mp hscope
    exact hnone d ⟨scope, hd, hmem⟩

theorem resolve_inScope {c : Context} {d : Nat} :
    (run {} calls).resolve c name = .ok (.inScope d) ↔
      BoundAt calls d name ∧ ∀ i < d, ¬BoundAt calls i name := by
  rw [← findIdx?_eq_some, resolve]
  generalize List.findIdx? _ _ = found
  cases found with
  | some depth => simp
  | none =>
    by_cases hdeclared : name ∈ c.declared
    · simp [hdeclared]
    · simp [hdeclared]

theorem resolve_declared {c : Context} :
    (run {} calls).resolve c name = .ok .declared ↔
      (∀ d, ¬BoundAt calls d name) ∧ name ∈ c.declared := by
  rw [← findIdx?_eq_none, resolve]
  generalize List.findIdx? _ _ = found
  cases found with
  | some depth => simp
  | none => simp

theorem resolve_undeclared {c : Context} {f : Fault} :
    (run {} calls).resolve c name = .error f ↔
      (∀ d, ¬BoundAt calls d name) ∧ name ∉ c.declared ∧ f = .undeclaredVariable name := by
  rw [← findIdx?_eq_none, resolve]
  generalize List.findIdx? _ _ = found
  cases found with
  | some depth => simp
  | none =>
    by_cases hdeclared : name ∈ c.declared
    · simp [hdeclared]
    · simp [hdeclared, eq_comm]

/-! ## Nesting -/

/-- Every scope that the calls close is one that they opened, and they close all of these. -/
structure Balanced (calls : List Call) : Prop where
  inside : ∀ before, before <+: calls → before.count .exit ≤ before.count .enter
  closed : calls.count .exit = calls.count .enter

instance (calls : List Call) : Decidable (Balanced calls) :=
  decidable_of_iff ((∀ before ∈ calls.inits, before.count .exit ≤ before.count .enter) ∧
      calls.count .exit = calls.count .enter)
    ⟨fun h => ⟨fun before hbefore => h.1 before ((List.mem_inits _ _).mpr hbefore), h.2⟩,
      fun h => ⟨fun before hbefore => h.inside before ((List.mem_inits _ _).mp hbefore), h.closed⟩⟩

/-- A call leaves the scopes outside alone as long as a scope is open inside. -/
theorem call_append {inner : List (List ExpandedName)} (h : inner ≠ [])
    (outer : List (List ExpandedName)) (c : Call) :
    ∃ inner', call ⟨inner ++ outer⟩ c = ⟨inner' ++ outer⟩ ∧
      inner'.length + [c].count .exit = inner.length + [c].count .enter := by
  cases inner with
  | nil => exact absurd rfl h
  | cons scope inner =>
    cases c with
    | enter => exact ⟨[] :: scope :: inner, rfl, rfl⟩
    | exit => exact ⟨inner, rfl, rfl⟩
    | bind name => exact ⟨(name :: scope) :: inner, rfl, rfl⟩

theorem count_cons (c x : Call) (calls : List Call) :
    (c :: calls).count x = [c].count x + calls.count x := by
  rw [← List.singleton_append, List.count_append]

/-- While no more scopes are closed than are open inside, the scopes outside are left alone. -/
theorem run_append (outer : List (List ExpandedName)) (calls : List Call)
    {inner : List (List ExpandedName)}
    (h : ∀ before, before <+: calls → before.count .exit < inner.length + before.count .enter) :
    ∃ inner', run ⟨inner ++ outer⟩ calls = ⟨inner' ++ outer⟩ ∧
      inner'.length + calls.count .exit = inner.length + calls.count .enter := by
  induction calls generalizing inner with
  | nil => exact ⟨inner, rfl, rfl⟩
  | cons c calls ih =>
    have hinner : inner ≠ [] := by
      rintro rfl
      exact absurd (h [] List.nil_prefix) (Nat.lt_irrefl 0)
    obtain ⟨inner₁, hcall, hlength₁⟩ := call_append hinner outer c
    have hrest : ∀ before, before <+: calls →
        before.count .exit < inner₁.length + before.count .enter := by
      intro before hbefore
      have hlt := h (c :: before) (List.cons_prefix_cons.mpr ⟨rfl, hbefore⟩)
      rw [count_cons c .exit before, count_cons c .enter before] at hlt
      omega
    obtain ⟨inner₂, hrun, hlength₂⟩ := ih hrest
    refine ⟨inner₂, ?_, ?_⟩
    · show run (call ⟨inner ++ outer⟩ c) calls = _
      rw [hcall, hrun]
    · rw [count_cons c .exit calls, count_cons c .enter calls]
      omega

/-- A scope with balanced calls inside is closed by the call behind them, and with it everything
that they have changed. -/
theorem exit_run_enter (s : Scopes) (h : Balanced calls) : (s.enter.run calls).exit = (true, s) := by
  obtain ⟨scopes⟩ := s
  have hinside : ∀ before, before <+: calls →
      before.count .exit < [([] : List ExpandedName)].length + before.count .enter := by
    intro before hbefore
    have hle := h.inside before hbefore
    rw [List.length_singleton]
    omega
  obtain ⟨inner, hrun, hlength⟩ := run_append scopes calls hinside
  have hone : inner.length = 1 := by
    rw [h.closed] at hlength
    exact Nat.add_right_cancel hlength
  obtain ⟨scope, rfl⟩ := List.length_eq_one_iff.mp hone
  show (run ⟨[[]] ++ scopes⟩ calls).exit = (true, ⟨scopes⟩)
  rw [hrun]
  rfl

/-- A reference is resolved to the innermost open scope in which the variable was bound, or else to
the static context, or else refused. A scope that is closed leaves everything as it was when the
scope was opened, if the calls inside it are balanced. -/
theorem resolve_lexical (c : Context) (calls : List Call) :
    (∀ name d, (run {} calls).resolve c name = .ok (.inScope d) ↔
      BoundAt calls d name ∧ ∀ i < d, ¬BoundAt calls i name) ∧
    (∀ name, (run {} calls).resolve c name = .ok .declared ↔
      (∀ d, ¬BoundAt calls d name) ∧ name ∈ c.declared) ∧
    (∀ name f, (run {} calls).resolve c name = .error f ↔
      (∀ d, ¬BoundAt calls d name) ∧ name ∉ c.declared ∧ f = .undeclaredVariable name) ∧
    (∀ name, (Fault.undeclaredVariable name).toError.code = ⟨some Namespace.errors, "XPST0008"⟩) ∧
    ∀ inside, Balanced inside →
      ∃ s, ((run {} calls).enter.run inside).exit = (true, s) ∧
        s.depth = (run {} calls).depth ∧
        ∀ name, s.resolve c name = (run {} calls).resolve c name := by
  refine ⟨fun _ _ => resolve_inScope, fun _ => resolve_declared, fun _ _ => resolve_undeclared,
    fun _ => rfl, ?_⟩
  intro inside hbalanced
  exact ⟨_, exit_run_enter _ hbalanced, rfl, fun _ => rfl⟩

/-- Inside, both variables are bound once more, and both scopes that are opened are closed again, so
that each variable is back at its outer binding. -/
theorem resolve_lexical_shadowed :
    let x : ExpandedName := ⟨none, "x"⟩
    let y : ExpandedName := ⟨none, "y"⟩
    let inside : List Call := [.bind x, .enter, .bind y, .exit, .bind y]
    Balanced inside ∧
    ∃ s, ((run {} [.bind x, .enter, .bind y]).enter.run inside).exit = (true, s) ∧
      s.depth = 2 ∧ s.resolve {} x = .ok (.inScope 1) ∧ s.resolve {} y = .ok (.inScope 0) := by
  intro x y inside
  have hbalanced : Balanced inside := by decide
  obtain ⟨_, _, _, _, hrestored⟩ := resolve_lexical {} [.bind x, .enter, .bind y]
  obtain ⟨s, hexit, hdepth, hresolve⟩ := hrestored inside hbalanced
  exact ⟨hbalanced, s, hexit, hdepth, hresolve x, hresolve y⟩

end Scopes

end XQuery
