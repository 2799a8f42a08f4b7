import XQuery.Proofs.Lexer.Progress
import XQuery.Proofs.Lexer.Tree

/-!
# Tiling

Draining a lexer ends, and its tokens lie side by side from the start of the
region on: none is empty, none overlaps the next, and none reaches past the
end of the region. The expression lexer, with or without documentation, leaves
nothing of the region over.
-/

namespace XQuery

open Utf16 (width)

/-- The tokens follow one another without a gap from `first` to `last`, and none is empty. -/
def Tiles : Nat → List Token → Nat → Prop
  | first, [], last => first = last
  | first, t :: ts, last => t.start = first ∧ t.start < t.stop ∧ Tiles t.stop ts last

theorem Tiles.le {first last : Nat} {ts : List Token} (h : Tiles first ts last) :
    first ≤ last := by
  induction ts generalizing first with
  | nil => exact Nat.le_of_eq h
  | cons t ts ih =>
    obtain ⟨hstart, hlt, hrest⟩ := h
    have hle := ih hrest
    omega

theorem Tiles.eq_nil {offset : Nat} {ts : List Token} (h : Tiles offset ts offset) : ts = [] := by
  cases ts with
  | nil => rfl
  | cons t ts =>
    obtain ⟨hstart, hlt, hrest⟩ := h
    have hle := hrest.le
    omega

theorem Tiles.ne_nil {first last : Nat} {ts : List Token} (h : Tiles first ts last)
    (hlt : first < last) : ts ≠ [] := by
  rintro rfl
  have heq : first = last := h
  omega

theorem Tiles.mem {first last : Nat} {ts : List Token} (h : Tiles first ts last) {t : Token}
    (ht : t ∈ ts) : t.start < t.stop ∧ t.stop ≤ last := by
  induction ts generalizing first with
  | nil => cases ht
  | cons u ts ih =>
    obtain ⟨hstart, hlt, hrest⟩ := h
    rcases List.mem_cons.mp ht with rfl | ht
    · exact ⟨hlt, hrest.le⟩
    · exact ih hrest ht

namespace Lexer

variable {lexer : Lexer}

/-- Taking tokens as long as there are any, from one memory to the exhausted one. -/
inductive Drains (lexer : Lexer) : lexer.Memory → List Token → lexer.Memory → Prop
  | done {m : lexer.Memory} : lexer.token? m = none → Drains lexer m [] m
  | more {m m' : lexer.Memory} {t : Token} {ts : List Token} : lexer.token? m = some t →
      Drains lexer (lexer.advance m) ts m' → Drains lexer m (t :: ts) m'

theorem token?_eq_none {m : lexer.Memory} : lexer.token? m = none ↔ lexer.kind m = none := by
  simp [token?]

theorem token?_eq_some {m : lexer.Memory} {t : Token} (h : lexer.token? m = some t) :
    lexer.kind m = some t.kind ∧ lexer.state m = t.state ∧
      (lexer.cursor m).start = t.start ∧ (lexer.cursor m).stop = t.stop := by
  simp only [token?, Option.map_eq_some_iff] at h
  obtain ⟨k, hk, rfl⟩ := h
  exact ⟨hk, rfl, rfl, rfl⟩

/-- A limit above the number of code points ahead is never reached. -/
theorem take_drains (h : lexer.Progressive) {n : Nat} {m : lexer.Memory}
    (hn : lexer.kind m = none ∨ (lexer.cursor m).ahead.length < n) :
    lexer.Drains m (lexer.take n m).1 (lexer.take n m).2 := by
  induction n generalizing m with
  | zero =>
    rcases hn with hn | hn
    · exact .done (token?_eq_none.mpr hn)
    · omega
  | succ n ih =>
    cases ht : lexer.token? m with
    | none =>
      simp only [take, ht]
      exact .done ht
    | some t =>
      simp only [take, ht]
      refine .more ht (ih ?_)
      have hsome : lexer.kind m ≠ none := by simp [(token?_eq_some ht).1]
      have hlt : (lexer.cursor m).ahead.length < n + 1 := hn.resolve_left hsome
      -- a token takes a code point off what is ahead, and the limit falls by one
      obtain ⟨k, hread, hle, hpos⟩ := h.advance m
      cases hkind : lexer.kind (lexer.advance m) with
      | none => exact .inl rfl
      | some kind =>
        rw [hkind] at hpos
        have hk : 0 < k := hpos.mpr rfl
        rw [hread.ahead, List.length_drop]
        exact .inr (by omega)

theorem drain_drains (h : lexer.Progressive) (m : lexer.Memory) :
    lexer.Drains m (lexer.drain m).1 (lexer.drain m).2 :=
  take_drains h (.inr (Nat.lt_succ_self _))

/-- The tokens of a whole run lie side by side from where the run began to where it ended. -/
theorem Drains.tiles (hlexer : lexer.Progressive) {m m' : lexer.Memory} {ts : List Token}
    (h : lexer.Drains m ts m') {c : Cursor} (hm : c.Moves (lexer.kind m) (lexer.cursor m)) :
    Tiles c.stop ts (lexer.cursor m').stop ∧
      (lexer.cursor m').stop + width (lexer.cursor m').ahead = c.stop + width c.ahead := by
  induction h generalizing c with
  | done hnone =>
    rw [token?_eq_none.mp hnone] at hm
    have hread := hm.reads_zero
    exact ⟨by simpa [Tiles] using hread.stop.symm, hread.stop_add_width⟩
  | more hsome _ ih =>
    obtain ⟨hkind, _, hstart, hstop⟩ := token?_eq_some hsome
    obtain ⟨htiles, hwidth⟩ := ih (hlexer.advance _)
    obtain ⟨n, hread, hle, hpos⟩ := hm
    rw [hkind] at hpos
    have hn : 0 < n := hpos.mpr rfl
    have htake := Utf16.width_take_pos hn hle
    refine ⟨⟨?_, ?_, ?_⟩, ?_⟩
    · rw [← hstart, hread.start]
    · rw [← hstart, ← hstop, hread.start, hread.stop]
      omega
    · rw [← hstop]
      exact htiles
    · rw [hwidth, hread.stop_add_width]

theorem Drains.ahead_eq_nil (hlexer : lexer.Exhaustive) {m m' : lexer.Memory} {ts : List Token}
    (h : lexer.Drains m ts m') (hm : lexer.kind m = none → (lexer.cursor m).ahead = []) :
    (lexer.cursor m').ahead = [] := by
  induction h with
  | done hnone => exact hm (token?_eq_none.mp hnone)
  | more _ _ ih => exact ih (hlexer.advance _)

theorem Tree.progressive (h : lexer.Tree) : lexer.Progressive := by
  induction h with
  | expression => exact ofRule_progressive Expression.rule_progressive
  | documentation => exact ofRule_progressive Documentation.rule_progressive
  | combined _ _ hbuild ihlanguage ihsubs =>
    refine Combined.lexer_progressive ?_ ?_
    · rw [(Combined.build_eq_ok hbuild).2.1]
      exact ihlanguage
    · intro i
      obtain ⟨s, hs, heq⟩ := Combined.build_sub hbuild i
      rw [heq]
      exact ihsubs s hs

theorem expression_exhaustive : Lexer.expression.Exhaustive :=
  ofRule_exhaustive Expression.rule_exhaustive

theorem documented_exhaustive : Lexer.documented.Exhaustive :=
  Combined.lexer_exhaustive expression_exhaustive

/-- The tokens of a region tile it up to where the lexer is exhausted. -/
theorem Progressive.tokens_tiles (h : lexer.Progressive) (units : Array UInt16)
    (first last state : Nat) :
    ∃ m, lexer.Drains (lexer.startOver lexer.fresh units first last state)
        (lexer.tokens units first last state) m ∧
      Tiles (min first (min last units.size)) (lexer.tokens units first last state)
        (lexer.cursor m).stop ∧
      (lexer.cursor m).stop + width (lexer.cursor m).ahead = min last units.size := by
  have hdrains := drain_drains h (lexer.startOver lexer.fresh units first last state)
  obtain ⟨htiles, hwidth⟩ := hdrains.tiles h
    (h.start lexer.fresh (Cursor.ofRegion units first last) state)
  rw [Cursor.ofRegion_stop_add_width] at hwidth
  exact ⟨_, hdrains, htiles, hwidth⟩

/-- A lexer that ends only where nothing is ahead tiles the region up to its end. -/
theorem Exhaustive.tokens_tiles (hexhaustive : lexer.Exhaustive) (h : lexer.Progressive)
    (units : Array UInt16) (first last state : Nat) :
    Tiles (min first (min last units.size)) (lexer.tokens units first last state)
      (min last units.size) := by
  obtain ⟨m, hdrains, htiles, hwidth⟩ := h.tokens_tiles units first last state
  have hnil := hdrains.ahead_eq_nil hexhaustive (hexhaustive.start _ _ _)
  rw [hnil, Utf16.width_nil, Nat.add_zero] at hwidth
  rw [hwidth] at htiles
  exact htiles

/-- Draining a lexer tree over any region, in any state, ends, and the tokens tile the region from
its start on. Nothing is left over by the expression lexer with or without documentation. -/
theorem tokens_tile (h : lexer.Tree) (units : Array UInt16) (first last state : Nat) :
    (∃ m, lexer.Drains (lexer.startOver lexer.fresh units first last state)
        (lexer.tokens units first last state) m) ∧
      (∃ stop ≤ min last units.size,
        Tiles (min first (min last units.size)) (lexer.tokens units first last state) stop) ∧
      (∀ t ∈ lexer.tokens units first last state,
        t.start < t.stop ∧ t.stop ≤ min last units.size) ∧
      (lexer = .expression ∨ lexer = .documented →
        Tiles (min first (min last units.size)) (lexer.tokens units first last state)
          (min last units.size)) := by
  obtain ⟨m, hdrains, htiles, hwidth⟩ := h.progressive.tokens_tiles units first last state
  have hstop := Nat.le.intro hwidth
  refine ⟨⟨m, hdrains⟩, ⟨_, hstop, htiles⟩, ?_, ?_⟩
  · intro t ht
    obtain ⟨hlt, hle⟩ := htiles.mem ht
    exact ⟨hlt, Nat.le_trans hle hstop⟩
  · rintro (rfl | rfl)
    · exact expression_exhaustive.tokens_tiles h.progressive units first last state
    · exact documented_exhaustive.tokens_tiles h.progressive units first last state

/-- A combined lexer may be the language lexer and the sub-lexer of another one. -/
theorem tokens_tile_nested :
    ∃ c, Combined.build .documented [⟨.documented, 0x20000000, 0, 3, .pragmaBegin⟩] = .ok c ∧
      ∃ stop ≤ 6, Tiles 1 (c.lexer.tokens #[0x78, 0x28, 0x23, 0x28, 0x3A, 0xD800] 1 9 0) stop := by
  obtain ⟨c, hc⟩ : ∃ c, Combined.build .documented
      [⟨.documented, 0x20000000, 0, 3, .pragmaBegin⟩] = .ok c := ⟨_, rfl⟩
  have htree : Tree c.lexer := .combined .documented (by simpa using Tree.documented) hc
  exact ⟨c, hc, (tokens_tile htree #[0x78, 0x28, 0x23, 0x28, 0x3A, 0xD800] 1 9 0).2.1⟩

end Lexer

end XQuery
