import XQuery.Lexer.Combined

/-!
# What lexers remember

The memory of a lexer changes only by starting and by advancing. What a new
lexer satisfies and these two keep is an invariant, and it holds at all times.
The memory of a combined lexer consists of the memories of its parts, also of
those that are not active, and whatever it does it starts and advances its
parts: invariants of the parts make an invariant of the whole.
-/

namespace XQuery

/-- A property that a new lexer has and that neither starting nor advancing takes away. -/
structure Lexer.Invariant (lexer : Lexer) (P : lexer.Memory → Prop) : Prop where
  fresh : P lexer.fresh
  start : ∀ {m} c state, P m → P (lexer.start m c state)
  advance : ∀ {m}, P m → P (lexer.advance m)

/-- The default state of a scanner is never changed. -/
theorem Lexer.invariant_ofRule (rule : Rule) :
    (Lexer.ofRule rule).Invariant fun s => s.defaultState = 0 where
  fresh := rfl
  start _ _ h := h
  advance h := h

namespace Combined

variable {c : Combined}

@[simp] theorem Memory.setSub_self (m : c.Memory) (i : c.Index)
    (s : (c.sub i).lexer.Memory) : (m.setSub i s).subs i = s := by
  simp [setSub]

theorem Memory.setSub_of_ne (m : c.Memory) {i j : c.Index} (h : j ≠ i)
    (s : (c.sub i).lexer.Memory) : (m.setSub i s).subs j = m.subs j := by
  simp [setSub, h]

theorem settle_of_some {m : c.Memory} {i : c.Index} {k : Kind} (hactive : m.active = some i)
    (hkind : (c.sub i).lexer.kind (m.subs i) = some k) : c.settle m = m := by
  simp [settle, hactive, hkind]

theorem settle_of_none {m : c.Memory} {i : c.Index} (hactive : m.active = some i)
    (hkind : (c.sub i).lexer.kind (m.subs i) = none) :
    c.settle m = { m with
      language := c.language.start m.language
        ((c.sub i).lexer.cursor (m.subs i)).resume (c.sub i).parent
      active := none } := by
  simp [settle, hactive, hkind]

/-- The memory of the language lexer satisfies `P`, and that of each sub-lexer its `Q`. -/
structure Each (c : Combined) (P : c.language.Memory → Prop)
    (Q : (i : c.Index) → (c.sub i).lexer.Memory → Prop) (m : c.Memory) : Prop where
  language : P m.language
  subs : ∀ i, Q i (m.subs i)

variable {P : c.language.Memory → Prop} {Q : (i : c.Index) → (c.sub i).lexer.Memory → Prop}
  {m : c.Memory}

theorem Each.setSub (h : c.Each P Q m) {i : c.Index} {s : (c.sub i).lexer.Memory} (hs : Q i s) :
    c.Each P Q (m.setSub i s) := by
  refine ⟨h.language, fun j => ?_⟩
  by_cases hj : j = i
  · subst hj
    rwa [Memory.setSub_self]
  · rw [Memory.setSub_of_ne m hj]
    exact h.subs j

theorem Each.settle (hlanguage : c.language.Invariant P) (h : c.Each P Q m) :
    c.Each P Q (c.settle m) := by
  unfold Combined.settle
  split
  · exact h
  · split
    · exact h
    · exact ⟨hlanguage.start _ _ h.language, h.subs⟩

theorem Each.enter (hlanguage : c.language.Invariant P)
    (hsubs : ∀ i, (c.sub i).lexer.Invariant (Q i)) (h : c.Each P Q m) (i : c.Index)
    (position : Cursor) (state : Nat) : c.Each P Q (c.enter m i position state) := by
  have hsub := h.setSub ((hsubs i).start position state (h.subs i))
  exact Each.settle hlanguage ⟨hsub.language, hsub.subs⟩

/-- A combined lexer does nothing to its parts but start and advance them. -/
theorem invariant_each (hlanguage : c.language.Invariant P)
    (hsubs : ∀ i, (c.sub i).lexer.Invariant (Q i)) : c.lexer.Invariant (c.Each P Q) where
  fresh := ⟨hlanguage.fresh, fun i => (hsubs i).fresh⟩
  start position state h := by
    simp only [lexer, start]
    split
    · exact h.enter hlanguage hsubs _ _ _
    · exact ⟨hlanguage.start _ _ h.language, h.subs⟩
  advance h := by
    simp only [lexer, advance]
    split
    · exact (h.setSub ((hsubs _).advance (h.subs _))).settle hlanguage
    · split
      · exact h.enter hlanguage hsubs _ _ _
      · exact ⟨hlanguage.advance h.language, h.subs⟩

end Combined

end XQuery
