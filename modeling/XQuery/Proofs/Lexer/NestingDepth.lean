import Mathlib.Logic.Function.Iterate
import XQuery.Proofs.Lexer.DocumentationWork
import XQuery.Proofs.Lexer.Tree

/-!
# Nesting depth

The documentation lexer keeps the depth of nested comments twice: in a word
beside the stack while it reads a token, and in the bits of the state above
the mode from token to token. Whatever is asked of it and whatever state it is
started in, the one is never counted below zero or past the end of the word,
the other never loses a bit of it, and both are the same after every token
(`Documentation.depth_kept`). A depth from a foreign state may lie above the
greatest depth that the lexer counts to; also then the states stay below the
ids of combined states, so that a combined lexer shows the whole state.
-/

namespace XQuery

namespace Machine

/-- The state in which the request starts the machine, if it does. -/
def Request.state? : Request → Option UInt32
  | start _ _ _ state => some state
  | advance => none

/-- The state of the latest start, or the default state. -/
def initialState (requests : List Request) : UInt32 :=
  requests.foldl (fun state request => request.state?.getD state) 0

theorem initialState_concat (requests : List Request) (request : Request) :
    initialState (requests ++ [request]) = request.state?.getD (initialState requests) := by
  rw [initialState, List.foldl_append]
  rfl

end Machine

namespace Documentation

open Machine (Request)

/-! ## The depth beside the stack -/

/-- A token is begun in the state on top of the stack, and it leaves the session settled. -/
theorem advance_spec (m : Machine) :
    ∃ m', m.advance work = some m' ∧ m'.tokenState = m.session.nextState ∧ m'.session.Settled := by
  have hpoised : m.session.flush.cursor.start = m.session.flush.cursor.stop := by
    rw [Session.flush, Session.cursor_call]
    rfl
  obtain ⟨⟨token, t⟩, hwork, -, hsettled⟩ := work_finds m.session.nextState m.session.flush hpoised
  refine ⟨⟨t, token, m.session.nextState⟩, ?_, rfl, hsettled rfl⟩
  rw [Machine.advance, hwork]
  rfl

theorem perform_settled {m m' : Machine} {request : Request}
    (h : m.perform work request = some m') : m'.session.Settled := by
  have hadvance {before : Machine} (h : before.advance work = some m') : m'.session.Settled := by
    obtain ⟨after, heq, -, hsettled⟩ := advance_spec before
    obtain rfl := Option.some.inj (heq.symm.trans h)
    exact hsettled
  cases request with
  | start units first last state => exact hadvance h
  | advance => exact hadvance h

theorem run_settled {requests : List Request} {m : Machine}
    (h : Machine.run work requests = some m) : m.session.Settled := by
  rcases List.eq_nil_or_concat requests with rfl | ⟨before, request, rfl⟩
  · obtain rfl := Option.some.inj h
    rfl
  · rw [List.concat_eq_append, Machine.run_concat, Option.bind_eq_some_iff] at h
    obtain ⟨m', -, hperform⟩ := h
    exact perform_settled hperform

theorem shiftLeft_of_settled {s : Session} (h : s.Settled) : s.depth <<< 8 >>> 8 = s.depth := by
  rw [← h, ← UInt32.toNat_inj, toNat_shiftRight, Work.toNat_shiftLeft (shiftRight_lt _),
    Nat.mul_div_cancel _ (by decide)]

/-! ## States below the ids -/

/-- The states that the scanner reports and reads on in lie below the ids. -/
structure Below (s : Scanner) : Prop where
  tokenState : s.tokenState < idUnit
  nextState : s.nextState < idUnit

theorem below_advance {s : Scanner} (h : s.nextState < idUnit) : Below (s.advance rule) := by
  refine ⟨h, ?_⟩
  have hnext : (s.advance rule).nextState
      = ((rule s.nextState s.cursor.ahead).move.apply s.stack).headD s.defaultState := rfl
  rw [hnext]
  rcases rule_move s.nextState s.cursor.ahead with hmove | ⟨mode, depth, hmove, hdepth⟩
  · rw [hmove]
    exact h
  · rw [hmove]
    refine pack_lt mode (Nat.le_trans hdepth ?_)
    simp only [depthUnit, idUnit, maxDepth] at *
    omega

theorem below_start (s : Scanner) (c : Cursor) {state : Nat} (h : state < idUnit) :
    Below ((s.start c state).advance rule) := by
  refine below_advance ?_
  rw [Scanner.nextState, Scanner.start]
  split
  · exact h
  · exact h

theorem below_fresh : Below Lexer.documentation.fresh := ⟨by decide, by decide⟩

theorem below_after {requests : List Request}
    (h : (Machine.initialState requests).toNat < idUnit) :
    Below (Lexer.documentation.after (requests.map Request.call)) := by
  induction requests using List.reverseRecOn with
  | nil => exact below_fresh
  | append_singleton requests request ih =>
    rw [Machine.initialState_concat] at h
    rw [List.map_append, List.map_singleton, Machine.after_concat]
    cases request with
    | start units first last state => exact below_start _ _ h
    | advance => exact below_advance (ih h).nextState

theorem and_mask_of_lt {state : UInt32} (h : state.toNat < idUnit) :
    state &&& 0x0FFFFFFF = state := by
  rw [← UInt32.toNat_inj, UInt32.toNat_and]
  exact (Nat.and_two_pow_sub_one_eq_mod _ 28).trans (Nat.mod_eq_of_lt h)

end Documentation

/-! ## Combined lexers -/

namespace Lexer

variable {lexer : Lexer}

/-- However far the lexer is advanced, the states that it reports lie below the ids. -/
def ReportsBelow (lexer : Lexer) (m : lexer.Memory) : Prop :=
  ∀ n, lexer.state (lexer.advance^[n] m) < idUnit

theorem ReportsBelow.advance {m : lexer.Memory} (h : lexer.ReportsBelow m) :
    lexer.ReportsBelow (lexer.advance m) := fun n => h (n + 1)

theorem reportsBelow_of_below {s : Scanner} (h : Documentation.Below s) :
    Lexer.documentation.ReportsBelow s := by
  intro n
  induction n generalizing s with
  | zero => exact h.tokenState
  | succ n ih => exact ih (Documentation.below_advance h.nextState)

theorem reportsBelow_fresh (h : lexer = .documentation) : lexer.ReportsBelow lexer.fresh := by
  subst h
  exact reportsBelow_of_below Documentation.below_fresh

theorem reportsBelow_start (h : lexer = .documentation) (m : lexer.Memory) (c : Cursor)
    {state : Nat} (hstate : state < idUnit) : lexer.ReportsBelow (lexer.start m c state) := by
  subst h
  exact reportsBelow_of_below (Documentation.below_start m c hstate)

end Lexer

namespace Combined

variable {c : Combined} {m : c.Memory}

/-- What the documentation lexers of a combined lexer report lies below the ids. -/
abbrev DocumentationBelow (c : Combined) : c.Memory → Prop :=
  c.Each (fun _ => True) fun i s =>
    (c.sub i).lexer = .documentation → (c.sub i).lexer.ReportsBelow s

theorem DocumentationBelow.settle (h : c.DocumentationBelow m) :
    c.DocumentationBelow (c.settle m) :=
  Each.settle ⟨trivial, fun _ _ _ => trivial, fun _ => trivial⟩ h

theorem DocumentationBelow.enter (h : c.DocumentationBelow m) (i : c.Index) (position : Cursor)
    {state : Nat} (hstate : state < idUnit) :
    c.DocumentationBelow (c.enter m i position state) := by
  have hsub := Each.setSub h (i := i) fun hi =>
    Lexer.reportsBelow_start hi (m.subs i) position hstate
  exact DocumentationBelow.settle ⟨trivial, hsub.subs⟩

/-- A combined lexer hands its sub-lexers only states below the ids. -/
theorem documentationBelow (hchild : ∀ i, (c.sub i).child < idUnit) :
    c.lexer.Invariant c.DocumentationBelow where
  fresh := ⟨trivial, fun _ hi => Lexer.reportsBelow_fresh hi⟩
  start position state h := by
    simp only [lexer, start]
    split
    · exact DocumentationBelow.enter h _ _ (Nat.mod_lt _ idUnit_pos)
    · exact ⟨trivial, h.subs⟩
  advance h := by
    simp only [lexer, advance]
    split
    · exact DocumentationBelow.settle (h.setSub fun hi => (h.subs _ hi).advance)
    · split
      · exact DocumentationBelow.enter h _ _ (hchild _)
      · exact ⟨trivial, h.subs⟩

theorem child_lt {language : Lexer} {subs : List SubLexer} (h : build language subs = .ok c)
    (i : c.Index) : (c.sub i).child < idUnit := by
  obtain ⟨s, -, hs⟩ := build_sub h i
  rw [hs]
  exact Nat.mod_lt _ idUnit_pos

theorem state_of_active {i : c.Index} (hactive : m.active = some i)
    (hlt : (c.sub i).lexer.state (m.subs i) < idUnit) :
    c.state m = (c.sub i).id + (c.sub i).lexer.state (m.subs i) := by
  simp only [state, hactive]
  rw [Nat.mod_eq_of_lt hlt]

end Combined

/-- The depth of nested comments never wraps and never spills into the id of a combined state.
Whatever is asked of the documentation lexer, its work never fails, as it would if the depth were
counted below zero or past the end of its word, or if a state had no room for it; and it reads the
tokens of the lexer. The next token is begun at the depth that the last one has left. Started below
the ids, the lexer reports only states below them, and so a mask that drops the id changes none of
them, and a combined lexer shows the whole state of a documentation lexer. -/
theorem Documentation.depth_kept :
    (∀ requests : List Machine.Request, ∃ m, Machine.run work requests = some m ∧
      m.Agrees (Lexer.documentation.after (requests.map Machine.Request.call)) ∧
      m.session.depth <<< 8 >>> 8 = m.session.depth ∧
      (∃ m', m.advance work = some m' ∧ m'.tokenState >>> 8 = m.session.depth) ∧
      ((Machine.initialState requests).toNat < idUnit →
        m.tokenState.toNat < idUnit ∧ m.tokenState &&& 0x0FFFFFFF = m.tokenState)) ∧
    ∀ {language : Lexer} {subs : List SubLexer} {c : Combined},
      Combined.build language subs = .ok c → ∀ (history : List Lexer.Call) (i : c.Index),
      (c.sub i).lexer = .documentation →
      Combined.Memory.active (c.lexer.after history) = some i →
      c.lexer.state (c.lexer.after history) = (c.sub i).id
        + (c.sub i).lexer.state (Combined.Memory.subs (c.lexer.after history) i) := by
  refine ⟨fun requests => ?_, ?_⟩
  · obtain ⟨m, hrun, hagrees, -⟩ := Machine.run_agrees work_implements requests
    have hsettled := run_settled hrun
    obtain ⟨m', hadvance, hstate, -⟩ := advance_spec m
    refine ⟨m, hrun, hagrees, shiftLeft_of_settled hsettled,
      ⟨m', hadvance, by rw [hstate]; exact hsettled⟩, fun hinitial => ?_⟩
    have hlt : m.tokenState.toNat < idUnit := by
      rw [← hagrees.tokenState]
      exact (below_after hinitial).tokenState
    exact ⟨hlt, and_mask_of_lt hlt⟩
  · intro language subs c hbuild history i hi hactive
    have hbelow := (Combined.documentationBelow (Combined.child_lt hbuild)).after history
    exact Combined.state_of_active hactive (hbelow.subs i hi 0)

/-- A foreign state deeper than the lexer counts, in which one more comment opens, and a nested
comment in a documentation comment. -/
theorem Documentation.depth_kept_foreign :
    (∃ m, Machine.run work [.start #[0x28, 0x3A, 0x0A] 0 3 0x0FFFFF00, .advance] = some m ∧
      m.tokenState.toNat < idUnit ∧ m.tokenState &&& 0x0FFFFFFF = m.tokenState) ∧
    Lexer.documented.state
        (Lexer.documented.after [.start #[0x28, 0x3A, 0x7E, 0x28, 0x3A] 0 5 0, .advance, .advance])
      = documentationId + Lexer.documentation.state (Combined.Memory.subs
          (Lexer.documented.after
            [.start #[0x28, 0x3A, 0x7E, 0x28, 0x3A] 0 5 0, .advance, .advance])
          ⟨0, Nat.one_pos⟩) := by
  constructor
  · obtain ⟨m, hrun, -, -, -, hbelow⟩ :=
      depth_kept.1 [.start #[0x28, 0x3A, 0x0A] 0 3 0x0FFFFF00, .advance]
    exact ⟨m, hrun, hbelow (by decide)⟩
  · exact depth_kept.2 Combined.build_documented _ ⟨0, Nat.one_pos⟩ rfl (by decide +kernel)

end XQuery
