import XQuery.Proofs.Lexer.Simulation
import XQuery.Proofs.Lexer.Tiling

/-!
# What tokens depend on

The tokens of a region depend on the units of the region, on the state and on
nothing else. A lexer that is started again reads what a new lexer reads,
whatever calls it has served before (`Lexer.restart_forgets`). The rest of the
buffer has no influence: a region is read like a buffer of its own, although
the lexers that take over from one another are all started somewhere in the
whole buffer (`Lexer.tokens_region`).
-/

namespace XQuery

namespace Lexer

variable (lexer : Lexer)

/-! ## Restarting -/

/-- A call on a lexer. -/
inductive Call where
  /-- Start over a region of a buffer in a state. -/
  | start (units : Array UInt16) (first last state : Nat)
  /-- Read the next token. -/
  | advance
  /-- Read all remaining tokens. -/
  | tokens
deriving DecidableEq

/-- What the lexer remembers after a call. -/
def perform (m : lexer.Memory) : Call → lexer.Memory
  | .start units first last state => lexer.startOver m units first last state
  | .advance => lexer.advance m
  | .tokens => (lexer.drain m).2

/-- What a lexer remembers after these calls. -/
def after (history : List Call) : lexer.Memory := history.foldl lexer.perform lexer.fresh

/-- What a lexer shows of itself, also before it is started and once it is exhausted. -/
structure View where
  kind : Option Kind
  start : Nat
  stop : Nat
  state : Nat
  /-- The end of the region. -/
  limit : Nat
deriving DecidableEq

/-- What the lexer shows with this memory. -/
def view (m : lexer.Memory) : View where
  kind := lexer.kind m
  start := (lexer.cursor m).start
  stop := (lexer.cursor m).stop
  state := lexer.state m
  limit := (lexer.cursor m).limit

variable {lexer}

theorem Invariant.take {P : lexer.Memory → Prop} (h : lexer.Invariant P) (limit : Nat)
    {m : lexer.Memory} (hm : P m) : P (lexer.take limit m).2 := by
  induction limit generalizing m with
  | zero => exact hm
  | succ limit ih =>
    simp only [Lexer.take]
    split
    · exact hm
    · exact ih (h.advance hm)

theorem Invariant.perform {P : lexer.Memory → Prop} (h : lexer.Invariant P) {m : lexer.Memory}
    (hm : P m) (call : Call) : P (lexer.perform m call) := by
  cases call with
  | start units first last state => exact h.start _ _ hm
  | advance => exact h.advance hm
  | tokens => exact h.take _ hm

/-- An invariant holds after every history of calls. -/
theorem Invariant.after {P : lexer.Memory → Prop} (h : lexer.Invariant P) (history : List Call) :
    P (lexer.after history) := by
  have hrun : ∀ {m : lexer.Memory}, P m → P (history.foldl lexer.perform m) := by
    induction history with
    | nil => exact fun hm => hm
    | cons call history ih => exact fun hm => ih (h.perform hm call)
  exact hrun h.fresh

/-- At distance zero the lexers cannot be told apart. -/
theorem Simulation.view_eq (sim : lexer.Simulation) {m m' : lexer.Memory}
    (h : sim.Alike 0 m m') : lexer.view m' = lexer.view m := by
  have hcursor := sim.cursor h
  simp only [view, sim.kind h, sim.state h, hcursor.start, hcursor.stop, hcursor.limit,
    Nat.add_zero]

/-- A lexer that is started again after any history of calls has no memory of it: it shows what a
new lexer shows at every step, reads the same tokens, and ends alike. -/
theorem restart_forgets (h : lexer.Tree) (history : List Call) (units : Array UInt16)
    (first last state : Nat) :
    (lexer.drain (lexer.startOver (lexer.after history) units first last state)).1
        = lexer.tokens units first last state ∧
      lexer.view (lexer.drain (lexer.startOver (lexer.after history) units first last state)).2
        = lexer.view (lexer.drain (lexer.startOver lexer.fresh units first last state)).2 ∧
      ∀ n, lexer.view (Nat.repeat lexer.advance n
          (lexer.startOver (lexer.after history) units first last state))
        = lexer.view (Nat.repeat lexer.advance n
          (lexer.startOver lexer.fresh units first last state)) := by
  obtain ⟨sim⟩ := h.exists_simulation
  have halike := sim.start state sim.ready.fresh (sim.ready.after history)
    (Cursor.ShiftedBy.refl (Cursor.ofRegion units first last))
  obtain ⟨htokens, hend⟩ := sim.drain halike
  refine ⟨?_, sim.view_eq hend, fun n => sim.view_eq (sim.repeat_advance halike n)⟩
  refine htokens.trans ?_
  rw [show Token.shift 0 = id from rfl, List.map_id]
  rfl

/-- A lexer that was stopped in the body of a documentation comment, restarted behind the end of its
buffer and drained reads the next text as a new one. -/
theorem restart_forgets_stopped :
    (Lexer.documented.drain (Lexer.documented.startOver
        (Lexer.documented.after [.advance, .start #[0x28, 0x3A, 0x7E, 0x28, 0x3A, 0x61] 0 6 0,
          .advance, .advance, .start #[0x3A] 5 9 0x10000101, .tokens])
        #[0x28, 0x3A, 0x7E, 0x61, 0x3A, 0x29] 0 6 0)).1
      = Lexer.documented.tokens #[0x28, 0x3A, 0x7E, 0x61, 0x3A, 0x29] 0 6 0 :=
  (restart_forgets Tree.documented _ _ 0 6 0).1

/-! ## Regions -/

/-- The units of a region, where offsets past the buffer are moved back to its end. -/
def regionUnits (units : Array UInt16) (first last : Nat) : Array UInt16 :=
  units.extract (min first (min last units.size)) (min last units.size)

theorem size_regionUnits (units : Array UInt16) (first last : Nat) :
    (regionUnits units first last).size
      = min last units.size - min first (min last units.size) := by
  simp only [regionUnits, Array.size_extract]
  omega

/-- The cursor of a region is that of its units as a buffer, moved to where the region starts. -/
theorem shiftedBy_ofRegion (units : Array UInt16) (first last : Nat) :
    (Cursor.ofRegion (regionUnits units first last) 0
        (regionUnits units first last).size).ShiftedBy (min first (min last units.size))
      (Cursor.ofRegion units first last) := by
  have hsize := size_regionUnits units first last
  refine ⟨?_, ?_, ?_, ?_⟩
  · simp [Cursor.ofRegion]
  · simp [Cursor.ofRegion]
  · simp only [Cursor.ofRegion, Nat.min_self, hsize]
    omega
  · simp only [Cursor.ofRegion, Cursor.slice, Nat.zero_min, Nat.min_self, Array.extract_size]
    rfl

end Lexer

/-- The cursor stands inside the region of the buffer that ends at `limit`. -/
structure Cursor.Within (units : Array UInt16) (limit : Nat) (c : Cursor) : Prop where
  units_eq : c.units = units
  limit_eq : c.limit = limit
  limit_le : limit ≤ units.size
  stop_le : c.stop ≤ limit
  ahead : c.ahead = slice units c.stop limit

namespace Cursor.Within

variable {units : Array UInt16} {limit : Nat} {c : Cursor}

theorem ofRegion (units : Array UInt16) (first last : Nat) :
    (Cursor.ofRegion units first last).Within units (min last units.size) :=
  ⟨rfl, rfl, Nat.min_le_right _ _, Nat.min_le_right _ _, rfl⟩

theorem flush (h : c.Within units limit) : c.flush.Within units limit :=
  ⟨h.units_eq, h.limit_eq, h.limit_le, h.stop_le, h.ahead⟩

theorem resume (h : c.Within units limit) : c.resume.Within units limit :=
  ⟨h.units_eq, h.limit_eq, h.limit_le, h.stop_le, h.ahead⟩

theorem skip (h : c.Within units limit) (n : Nat) : (c.skip n).Within units limit := by
  have hwidth : Utf16.width (slice units c.stop limit) = limit - c.stop :=
    width_slice units h.limit_le
  have hsplit := Utf16.width_take_add_drop (slice units c.stop limit) n
  have hle := h.stop_le
  rw [skip_eq, h.ahead]
  refine ⟨h.units_eq, h.limit_eq, h.limit_le, ?_, ?_⟩
  · show c.stop + Utf16.width ((slice units c.stop limit).take n) ≤ limit
    omega
  · exact (slice_add_width units c.stop limit n).symm

/-- A reader that takes over is started over what is left of the region, at its offset in the
buffer. -/
theorem resume_eq (h : c.Within units limit) : c.resume = Cursor.ofRegion units c.stop limit := by
  simp only [Cursor.resume, Cursor.ofRegion, Nat.min_eq_left h.limit_le,
    Nat.min_eq_left h.stop_le, h.units_eq, h.limit_eq, h.ahead]

end Cursor.Within

/-- A lexer whose active cursor never leaves the region that it was started over. -/
structure Lexer.Confined (lexer : Lexer) : Prop where
  start : ∀ {units limit c} m state, Cursor.Within units limit c →
    (lexer.cursor (lexer.start m c state)).Within units limit
  advance : ∀ {units limit m}, (lexer.cursor m).Within units limit →
    (lexer.cursor (lexer.advance m)).Within units limit

theorem Lexer.confined_ofRule (rule : Rule) : (Lexer.ofRule rule).Confined where
  start _ _ h := h.flush.skip _
  advance h := h.flush.skip _

namespace Combined

variable {c : Combined} {units : Array UInt16} {limit : Nat}

theorem settle_within (hlanguage : c.language.Confined) {m : c.Memory} {i : c.Index}
    (hactive : m.active = some i) (h : ((c.sub i).lexer.cursor (m.subs i)).Within units limit) :
    (c.cursor (c.settle m)).Within units limit := by
  cases hkind : (c.sub i).lexer.kind (m.subs i) with
  | some k =>
    rw [settle_of_some hactive hkind]
    simpa only [cursor, hactive] using h
  | none =>
    rw [settle_of_none hactive hkind]
    exact hlanguage.start _ _ h.resume

theorem enter_within (hlanguage : c.language.Confined) (hsubs : ∀ i, (c.sub i).lexer.Confined)
    (m : c.Memory) (i : c.Index) {position : Cursor} (h : position.Within units limit)
    (state : Nat) : (c.cursor (c.enter m i position state)).Within units limit := by
  refine settle_within hlanguage (i := i) rfl ?_
  simp only [Memory.setSub_self]
  exact (hsubs i).start _ _ h

theorem confined_lexer (hlanguage : c.language.Confined)
    (hsubs : ∀ i, (c.sub i).lexer.Confined) : c.lexer.Confined where
  start m state h := by
    simp only [lexer, start]
    split
    · exact enter_within hlanguage hsubs _ _ h _
    · exact hlanguage.start _ _ h
  advance {units limit m} h := by
    obtain ⟨language, subs, _ | i⟩ := m
    · simp only [lexer, advance]
      split
      · exact enter_within hlanguage hsubs _ _ (Cursor.Within.resume h) _
      · exact hlanguage.advance h
    · refine settle_within hlanguage (i := i) rfl ?_
      simp only [Memory.setSub_self]
      exact (hsubs i).advance h

end Combined

namespace Lexer

variable {lexer : Lexer}

theorem Tree.confined (h : lexer.Tree) : lexer.Confined := by
  induction h with
  | expression => exact confined_ofRule Expression.rule
  | documentation => exact confined_ofRule Documentation.rule
  | combined _ _ hbuild ihlanguage ihsubs =>
    refine Combined.confined_lexer ?_ ?_
    · rw [(Combined.build_eq_ok hbuild).2.1]
      exact ihlanguage
    · intro i
      obtain ⟨s, hs, heq⟩ := Combined.build_sub hbuild i
      rw [heq]
      exact ihsubs s hs

theorem Confined.repeat_advance (h : lexer.Confined) {units : Array UInt16} {limit : Nat}
    {m : lexer.Memory} (hm : (lexer.cursor m).Within units limit) (n : Nat) :
    (lexer.cursor (Nat.repeat lexer.advance n m)).Within units limit := by
  induction n with
  | zero => exact hm
  | succ n ih => exact h.advance ih

/-- The tokens of a region are those of its units read as a buffer of their own, moved to where the
region starts, so that buffers that share the region share its tokens. This is so although whatever
takes over in the course of a run is started over the whole buffer, at its offset there and up to
the end of the region. -/
theorem tokens_region (h : lexer.Tree) (units : Array UInt16) (first last state : Nat) :
    lexer.tokens units first last state
        = (lexer.tokens (regionUnits units first last) 0 (regionUnits units first last).size
          state).map (Token.shift (min first (min last units.size))) ∧
      (∀ units' : Array UInt16, min last units'.size = min last units.size →
        regionUnits units' first last = regionUnits units first last →
        lexer.tokens units' first last state = lexer.tokens units first last state) ∧
      ∀ n, (lexer.cursor (Nat.repeat lexer.advance n
          (lexer.startOver lexer.fresh units first last state))).resume
        = Cursor.ofRegion units (lexer.cursor (Nat.repeat lexer.advance n
          (lexer.startOver lexer.fresh units first last state))).stop (min last units.size) := by
  obtain ⟨sim⟩ := h.exists_simulation
  have hregion : ∀ units : Array UInt16, lexer.tokens units first last state
      = (lexer.tokens (regionUnits units first last) 0 (regionUnits units first last).size
        state).map (Token.shift (min first (min last units.size))) := by
    intro units
    exact (sim.drain (sim.start state sim.ready.fresh sim.ready.fresh
      (shiftedBy_ofRegion units first last))).1
  refine ⟨hregion units, ?_, ?_⟩
  · intro units' hlimit hunits
    rw [hregion units', hregion units, hunits, hlimit]
  · intro n
    have hstart := h.confined.start lexer.fresh state (Cursor.Within.ofRegion units first last)
    exact (h.confined.repeat_advance hstart n).resume_eq

/-- A region that ends between the `:` and the `)` of a documentation comment has the tokens of the
cut comment, and so it has when the closing parenthesis is another character. -/
theorem tokens_region_cut_comment :
    Lexer.documented.tokens #[0x78, 0x28, 0x3A, 0x7E, 0x61, 0x3A, 0x29] 1 6 0
        = (Lexer.documented.tokens #[0x28, 0x3A, 0x7E, 0x61, 0x3A] 0 5 0).map (Token.shift 1) ∧
      Lexer.documented.tokens #[0x71, 0x28, 0x3A, 0x7E, 0x61, 0x3A, 0x3D, 0x31] 1 6 0
        = Lexer.documented.tokens #[0x78, 0x28, 0x3A, 0x7E, 0x61, 0x3A, 0x29] 1 6 0 := by
  have hunits : regionUnits #[0x78, 0x28, 0x3A, 0x7E, 0x61, 0x3A, 0x29] 1 6
      = #[0x28, 0x3A, 0x7E, 0x61, 0x3A] := by decide
  obtain ⟨htokens, hshared, -⟩ :=
    tokens_region Tree.documented #[0x78, 0x28, 0x3A, 0x7E, 0x61, 0x3A, 0x29] 1 6 0
  rw [hunits] at htokens
  exact ⟨htokens, hshared _ (by decide) (by decide)⟩

end Lexer

end XQuery
