import XQuery.Proofs.Lexer.Invariants
import XQuery.Proofs.Lexer.Tree
import XQuery.Proofs.Text.Cursor

/-!
# Lexers that run alike

Two lexers of one kind that are started in the same state on the same code
points read the same tokens, whatever they did before and wherever in their
buffers the code points lie. A simulation is a relation between memories that
starting brings about and advancing keeps, and that says that the lexers show
the same token, a fixed number of units apart. A scanner is determined by its
stack and its cursor. A combined lexer has more to forget: its parts are
started anew over and over, and each time from a memory of its own past. Every
lexer tree has a simulation (`Lexer.Tree.exists_simulation`).
-/

namespace XQuery

/-! ## Cursors and tokens that are some units apart -/

/-- The cursor `d` has the same code points ahead as `c`, and lies `n` units further on. -/
structure Cursor.ShiftedBy (n : Nat) (c d : Cursor) : Prop where
  start : d.start = c.start + n
  stop : d.stop = c.stop + n
  limit : d.limit = c.limit + n
  ahead : d.ahead = c.ahead

namespace Cursor.ShiftedBy

variable {n : Nat} {c d : Cursor}

theorem refl (c : Cursor) : ShiftedBy 0 c c := ⟨rfl, rfl, rfl, rfl⟩

theorem flush (h : ShiftedBy n c d) : ShiftedBy n c.flush d.flush :=
  ⟨h.stop, h.stop, h.limit, h.ahead⟩

theorem resume (h : ShiftedBy n c d) : ShiftedBy n c.resume d.resume :=
  ⟨h.stop, h.stop, h.limit, h.ahead⟩

theorem skip (h : ShiftedBy n c d) (k : Nat) : ShiftedBy n (c.skip k) (d.skip k) := by
  rw [skip_eq, skip_eq]
  refine ⟨h.start, ?_, h.limit, ?_⟩
  · simp only [h.stop, h.ahead]
    omega
  · simp only [h.ahead]

end Cursor.ShiftedBy

/-- The same token `n` units further on. -/
def Token.shift (n : Nat) (t : Token) : Token :=
  { t with start := t.start + n, stop := t.stop + n }

/-! ## Simulations -/

/-- Memories of a lexer that run alike. -/
structure Lexer.Simulation (lexer : Lexer) where
  /-- The memories that can be started, which are all that arise. -/
  Ready : lexer.Memory → Prop
  ready : lexer.Invariant Ready
  /-- The second memory shows and will show what the first one does, `n` units further on. -/
  Alike : Nat → lexer.Memory → lexer.Memory → Prop
  start : ∀ {n m m' c d} state, Ready m → Ready m' → Cursor.ShiftedBy n c d →
    Alike n (lexer.start m c state) (lexer.start m' d state)
  advance : ∀ {n m m'}, Alike n m m' → Alike n (lexer.advance m) (lexer.advance m')
  kind : ∀ {n m m'}, Alike n m m' → lexer.kind m' = lexer.kind m
  state : ∀ {n m m'}, Alike n m m' → lexer.state m' = lexer.state m
  cursor : ∀ {n m m'}, Alike n m m' → (lexer.cursor m).ShiftedBy n (lexer.cursor m')

namespace Lexer.Simulation

variable {lexer : Lexer} {n : Nat} {m m' : lexer.Memory}

theorem token? (sim : lexer.Simulation) (h : sim.Alike n m m') :
    lexer.token? m' = (lexer.token? m).map (Token.shift n) := by
  have hcursor := sim.cursor h
  simp only [Lexer.token?, sim.kind h, sim.state h, hcursor.start, hcursor.stop, Option.map_map]
  rfl

/-- Memories that run alike yield the same tokens and still run alike behind them. -/
theorem take (sim : lexer.Simulation) (h : sim.Alike n m m') (limit : Nat) :
    (lexer.take limit m').1 = (lexer.take limit m).1.map (Token.shift n) ∧
      sim.Alike n (lexer.take limit m).2 (lexer.take limit m').2 := by
  induction limit generalizing m m' with
  | zero => exact ⟨rfl, h⟩
  | succ limit ih =>
    have htoken := sim.token? h
    cases ht : lexer.token? m with
    | none =>
      rw [ht, Option.map_none] at htoken
      simp only [Lexer.take, ht, htoken]
      exact ⟨rfl, h⟩
    | some t =>
      rw [ht, Option.map_some] at htoken
      obtain ⟨htokens, halike⟩ := ih (sim.advance h)
      simp only [Lexer.take, ht, htoken, htokens]
      exact ⟨rfl, halike⟩

theorem drain (sim : lexer.Simulation) (h : sim.Alike n m m') :
    (lexer.drain m').1 = (lexer.drain m).1.map (Token.shift n) ∧
      sim.Alike n (lexer.drain m).2 (lexer.drain m').2 := by
  unfold Lexer.drain
  rw [(sim.cursor h).ahead]
  exact sim.take h _

theorem repeat_advance (sim : lexer.Simulation) (h : sim.Alike n m m') (k : Nat) :
    sim.Alike n (Nat.repeat lexer.advance k m) (Nat.repeat lexer.advance k m') := by
  induction k with
  | zero => exact h
  | succ k ih => exact sim.advance ih

end Lexer.Simulation

/-! ## Scanners -/

/-- The scanners are about to read the same token. -/
structure Scanner.Poised (n : Nat) (s t : Scanner) : Prop where
  default : t.defaultState = s.defaultState
  cursor : s.cursor.ShiftedBy n t.cursor
  stack : t.stack = s.stack

/-- The scanners have also read the same token. -/
structure Scanner.Alike (n : Nat) (s t : Scanner) : Prop extends Scanner.Poised n s t where
  token : t.token = s.token
  tokenState : t.tokenState = s.tokenState

theorem Scanner.poised_start {n : Nat} {s t : Scanner} (hs : s.defaultState = 0)
    (ht : t.defaultState = 0) {c d : Cursor} (h : c.ShiftedBy n d) (state : Nat) :
    Scanner.Poised n (s.start c state) (t.start d state) := by
  refine ⟨?_, h, ?_⟩
  · exact ht.trans hs.symm
  · simp only [start, hs, ht]

theorem Scanner.Poised.advance {n : Nat} {s t : Scanner} (h : Scanner.Poised n s t)
    (rule : Rule) : Scanner.Alike n (s.advance rule) (t.advance rule) := by
  have hstate : t.nextState = s.nextState := by
    rw [nextState, nextState, h.stack, h.default]
  have hstep : rule t.nextState t.cursor.ahead = rule s.nextState s.cursor.ahead := by
    rw [hstate, h.cursor.ahead]
  refine ⟨⟨h.default, ?_, ?_⟩, ?_, hstate⟩
  · show (s.cursor.flush.skip (rule s.nextState s.cursor.ahead).length).ShiftedBy n
      (t.cursor.flush.skip (rule t.nextState t.cursor.ahead).length)
    rw [hstep]
    exact h.cursor.flush.skip _
  · show (rule t.nextState t.cursor.ahead).move.apply t.stack
      = (rule s.nextState s.cursor.ahead).move.apply s.stack
    rw [hstep, h.stack]
  · exact congrArg Step.kind hstep

/-- The simulation of a lexer that reads by one rule. -/
def Lexer.Simulation.ofRule (rule : Rule) : (Lexer.ofRule rule).Simulation where
  Ready s := s.defaultState = 0
  ready := Lexer.invariant_ofRule rule
  Alike := Scanner.Alike
  start state hs ht h := (Scanner.poised_start hs ht h state).advance rule
  advance h := h.toPoised.advance rule
  kind h := h.token
  state h := h.tokenState
  cursor h := h.cursor

/-! ## Combined lexers -/

namespace Combined

variable {c : Combined}

/-- Simulations of the parts of a combined lexer. -/
structure Simulations (c : Combined) where
  language : c.language.Simulation
  subs : (i : c.Index) → (c.sub i).lexer.Simulation

namespace Simulations

/-- Every part can be started. -/
def Ready (p : c.Simulations) : c.Memory → Prop := c.Each p.language.Ready fun i => (p.subs i).Ready

theorem ready (p : c.Simulations) : c.lexer.Invariant p.Ready :=
  invariant_each p.language.ready fun i => (p.subs i).ready

/-- The same lexer is active in both, and runs alike. Of the others no more is known than that they
can be started. -/
inductive Alike (p : c.Simulations) (n : Nat) (m m' : c.Memory) : Prop
  | language : p.Ready m → p.Ready m' → m.active = none → m'.active = none →
      p.language.Alike n m.language m'.language → Alike p n m m'
  | sub {i : c.Index} : p.Ready m → p.Ready m' → m.active = some i → m'.active = some i →
      (p.subs i).Alike n (m.subs i) (m'.subs i) → Alike p n m m'

variable {p : c.Simulations} {n : Nat} {m m' : c.Memory}

theorem Alike.kind (h : p.Alike n m m') : c.kind m' = c.kind m := by
  cases h with
  | language _ _ hactive hactive' h =>
    simp only [Combined.kind, hactive, hactive', p.language.kind h]
  | @sub i _ _ hactive hactive' h =>
    simp only [Combined.kind, hactive, hactive', (p.subs i).kind h]

theorem Alike.state (h : p.Alike n m m') : c.state m' = c.state m := by
  cases h with
  | language _ _ hactive hactive' h =>
    simp only [Combined.state, hactive, hactive', p.language.state h]
  | @sub i _ _ hactive hactive' h =>
    simp only [Combined.state, hactive, hactive', (p.subs i).state h]

theorem Alike.cursor (h : p.Alike n m m') : (c.cursor m).ShiftedBy n (c.cursor m') := by
  cases h with
  | language _ _ hactive hactive' h =>
    simp only [Combined.cursor, hactive, hactive']
    exact p.language.cursor h
  | @sub i _ _ hactive hactive' h =>
    simp only [Combined.cursor, hactive, hactive']
    exact (p.subs i).cursor h

/-- Both go on with the sub-lexer, or both start the language lexer at the same place. -/
theorem settle_alike (hm : p.Ready m) (hm' : p.Ready m') {i : c.Index} (hactive : m.active = some i)
    (hactive' : m'.active = some i) (h : (p.subs i).Alike n (m.subs i) (m'.subs i)) :
    p.Alike n (c.settle m) (c.settle m') := by
  have hready := hm.settle p.language.ready
  have hready' := hm'.settle p.language.ready
  cases hkind : (c.sub i).lexer.kind (m.subs i) with
  | some k =>
    have hkind' := ((p.subs i).kind h).trans hkind
    rw [settle_of_some hactive hkind, settle_of_some hactive' hkind']
    exact .sub hm hm' hactive hactive' h
  | none =>
    have hkind' := ((p.subs i).kind h).trans hkind
    rw [settle_of_none hactive hkind] at hready ⊢
    rw [settle_of_none hactive' hkind'] at hready' ⊢
    refine .language hready hready' rfl rfl ?_
    exact p.language.start _ hm.language hm'.language ((p.subs i).cursor h).resume

theorem enter_alike (hm : p.Ready m) (hm' : p.Ready m') (i : c.Index) {position position' : Cursor}
    (h : position.ShiftedBy n position') (state : Nat) :
    p.Alike n (c.enter m i position state) (c.enter m' i position' state) := by
  have hsub := hm.setSub ((p.subs i).ready.start position state (hm.subs i))
  have hsub' := hm'.setSub ((p.subs i).ready.start position' state (hm'.subs i))
  refine settle_alike (i := i) ⟨hsub.language, hsub.subs⟩ ⟨hsub'.language, hsub'.subs⟩ rfl rfl ?_
  simp only [Memory.setSub_self]
  exact (p.subs i).start state (hm.subs i) (hm'.subs i) h

theorem start_alike (hm : p.Ready m) (hm' : p.Ready m') {position position' : Cursor}
    (h : position.ShiftedBy n position') (state : Nat) :
    p.Alike n (c.start m position state) (c.start m' position' state) := by
  unfold start
  simp only
  split
  · exact enter_alike hm hm' _ h _
  · refine .language ?_ ?_ rfl rfl (p.language.start _ hm.language hm'.language h)
    · exact ⟨p.language.ready.start _ _ hm.language, hm.subs⟩
    · exact ⟨p.language.ready.start _ _ hm'.language, hm'.subs⟩

theorem Alike.advance (h : p.Alike n m m') : p.Alike n (c.advance m) (c.advance m') := by
  cases h with
  | language hm hm' hactive hactive' h =>
    -- the same token hands over to the same sub-lexer
    simp only [Combined.advance, hactive, hactive', p.language.kind h]
    split
    · exact enter_alike hm hm' _ (p.language.cursor h).resume _
    · refine .language ?_ ?_ rfl rfl (p.language.advance h)
      · exact ⟨p.language.ready.advance hm.language, hm.subs⟩
      · exact ⟨p.language.ready.advance hm'.language, hm'.subs⟩
  | @sub i hm hm' hactive hactive' h =>
    simp only [Combined.advance, hactive, hactive']
    refine settle_alike (hm.setSub ((p.subs i).ready.advance (hm.subs i)))
      (hm'.setSub ((p.subs i).ready.advance (hm'.subs i))) hactive hactive' ?_
    simp only [Memory.setSub_self]
    exact (p.subs i).advance h

/-- The simulation of a combined lexer. -/
def simulation (p : c.Simulations) : c.lexer.Simulation where
  Ready := p.Ready
  ready := p.ready
  Alike := p.Alike
  start state hm hm' h := start_alike hm hm' h state
  advance h := h.advance
  kind h := h.kind
  state h := h.state
  cursor h := h.cursor

end Simulations

end Combined

/-- Every lexer tree has a simulation. -/
theorem Lexer.Tree.exists_simulation {lexer : Lexer} (h : lexer.Tree) :
    Nonempty lexer.Simulation := by
  induction h with
  | expression => exact ⟨.ofRule Expression.rule⟩
  | documentation => exact ⟨.ofRule Documentation.rule⟩
  | @combined language subs c _ _ hbuild ihlanguage ihsubs =>
    have hlanguage : Nonempty c.language.Simulation := by
      rw [(Combined.build_eq_ok hbuild).2.1]
      exact ihlanguage
    have hsubs : ∀ i, Nonempty (c.sub i).lexer.Simulation := by
      intro i
      obtain ⟨s, hs, heq⟩ := Combined.build_sub hbuild i
      rw [heq]
      exact ihsubs s hs
    obtain ⟨language⟩ := hlanguage
    let p : c.Simulations := ⟨language, fun i => Classical.choice (hsubs i)⟩
    exact ⟨p.simulation⟩

end XQuery
