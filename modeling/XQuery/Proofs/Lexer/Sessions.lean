import XQuery.Proofs.Lexer.Independence
import XQuery.Proofs.Text.CursorCalls
import XQuery.Proofs.Text.Utf16

/-!
# Lexers at work

A rule says which token stands at the front of the code points ahead. A lexer
at work has to find out: it sees one code point at a time, advances over it,
and goes back to a checkpoint where it has looked too far. A *session* is what
it does to its cursor and to its stack of states, which are 32-bit words; a
*machine* keeps a session from token to token. A machine that reads each token
as a rule has it (`Implements`) shows what the lexer of that rule shows, and
it goes back only to checkpoints that it has set inside the token
(`Machine.run_agrees`).
-/

namespace XQuery

open Utf16 (width)
open Cursor (Disciplined OwnCheckpoints)

/-- What a lexer has done since it was new: the calls on its cursor, in order, and the stack of
states, with the nesting depth that the documentation lexer keeps beside it. -/
structure Session where
  calls : List Cursor.Call := []
  stack : List UInt32 := []
  depth : UInt32 := 0

namespace Session

/-- The cursor after all calls. -/
def cursor (s : Session) : Cursor := Cursor.run s.calls

/-- One more call on the cursor. -/
def call (c : Cursor.Call) (s : Session) : Session := { s with calls := s.calls ++ [c] }

/-- The code point at the cursor, if one is left. -/
def peek (s : Session) : Option CodePoint := s.cursor.peek

/-- Whether the character is at the cursor. -/
def sees (ch : Char) (s : Session) : Bool := s.peek == some ch.toNat

/-- The class of what is at the cursor. -/
def charClass (s : Session) : CharClass :=
  match s.peek with
  | some c => CharClass.of c
  | none => .endOfBuffer

def flush (s : Session) : Session := s.call .flush

def bump (s : Session) : Session := s.call .advance

def skip (n : Nat) (s : Session) : Session := s.call (.skip n)

def save (s : Session) : Session := s.call .save

def restore (s : Session) : Session := s.call .restore

/-- Advance over the character if it is at the cursor, and tell whether it was. -/
def eat (ch : Char) (s : Session) : Bool × Session :=
  if s.sees ch then (true, s.bump) else (false, s)

/-- The state in which the next token is read. -/
def nextState (s : Session) : UInt32 := s.stack.headD 0

def push (state : UInt32) (s : Session) : Session := { s with stack := state :: s.stack }

def pop (s : Session) : Session := { s with stack := s.stack.tail }

/-- Replace the state on top of the stack. -/
def set (state : UInt32) (s : Session) : Session := s.pop.push state

@[simp] theorem cursor_call (c : Cursor.Call) (s : Session) :
    (s.call c).cursor = c.apply s.cursor := Cursor.run_concat s.calls c

theorem placed (s : Session) : s.cursor.Placed := Cursor.placed_run s.calls

@[simp] theorem ahead_bump (s : Session) : s.bump.cursor.ahead = s.cursor.ahead.tail := by
  rw [bump, cursor_call, Cursor.Call.apply, Cursor.advance_eq_skip, Cursor.skip_eq, List.drop_one]

@[simp] theorem ahead_save (s : Session) : s.save.cursor.ahead = s.cursor.ahead := by
  rw [save, cursor_call]
  rfl

theorem peek_eq (s : Session) : s.peek = s.cursor.ahead.head? := rfl

theorem sees_eq (ch : Char) (s : Session) : s.sees ch = Expression.next ch s.cursor.ahead := by
  rw [sees, peek_eq]
  cases s.cursor.ahead with
  | nil => rfl
  | cons c cs => rfl

section

variable {s : Session} {c : CodePoint} {cs : List CodePoint}

theorem peek_nil (hs : s.cursor.ahead = []) : s.peek = none := by rw [peek_eq, hs, List.head?_nil]

theorem peek_cons (hs : s.cursor.ahead = c :: cs) : s.peek = some c := by
  rw [peek_eq, hs, List.head?_cons]

theorem ahead_of_peek_none (h : s.peek = none) : s.cursor.ahead = [] := by
  rwa [peek_eq, List.head?_eq_none_iff] at h

theorem ahead_of_peek_some (h : s.peek = some c) : ∃ cs, s.cursor.ahead = c :: cs := by
  rwa [peek_eq, List.head?_eq_some_iff] at h

theorem charClass_nil (hs : s.cursor.ahead = []) : s.charClass = .endOfBuffer := by
  rw [charClass, peek_nil hs]

theorem charClass_cons (hs : s.cursor.ahead = c :: cs) : s.charClass = CharClass.of c := by
  rw [charClass, peek_cons hs]

theorem length_ahead_bump (h : s.peek = some c) :
    s.bump.cursor.ahead.length < s.cursor.ahead.length := by
  obtain ⟨cs, hcs⟩ := ahead_of_peek_some h
  simp [hcs]

end

/-- Advance as long as what is at the cursor satisfies the condition. -/
def eatWhile (p : CodePoint → Bool) (s : Session) : Session :=
  match _h : s.peek with
  | none => s
  | some c => if p c then s.bump.eatWhile p else s
termination_by s.cursor.ahead.length
decreasing_by exact length_ahead_bump _h

/-! ## Advancing and going back -/

/-- Advance a number of times. -/
def bumps (n : Nat) (s : Session) : Session :=
  { s with calls := s.calls ++ List.replicate n .advance }

theorem bumps_zero (s : Session) : s.bumps 0 = s := by simp [bumps]

theorem bumps_one (s : Session) : s.bumps 1 = s.bump := rfl

theorem bumps_bumps (m n : Nat) (s : Session) : (s.bumps m).bumps n = s.bumps (m + n) := by
  simp [bumps, List.append_assoc, List.replicate_append_replicate]

theorem bumps_bump (n : Nat) (s : Session) : (s.bumps n).bump = s.bumps (n + 1) := by
  rw [← bumps_one, bumps_bumps]

theorem bump_bumps (n : Nat) (s : Session) : s.bump.bumps n = s.bumps (1 + n) := by
  rw [← bumps_one, bumps_bumps]

theorem eatWhile_eq (p : CodePoint → Bool) (s : Session) :
    s.eatWhile p = s.bumps (s.cursor.ahead.takeWhile p).length := by
  fun_induction eatWhile p s with
  | case1 s hnone =>
    rw [ahead_of_peek_none hnone]
    exact s.bumps_zero.symm
  | case2 s c hsome hp ih =>
    obtain ⟨cs, hcs⟩ := ahead_of_peek_some hsome
    rw [ih, ahead_bump, hcs, List.tail_cons, List.takeWhile_cons_of_pos hp, bump_bumps,
      List.length_cons, Nat.add_comm]
  | case3 s c hsome hp =>
    obtain ⟨cs, hcs⟩ := ahead_of_peek_some hsome
    rw [hcs, List.takeWhile_cons_of_neg hp]
    exact s.bumps_zero.symm

theorem eatWhile_cons {p : CodePoint → Bool} {s : Session} {c : CodePoint} {cs : List CodePoint}
    (h : s.cursor.ahead = c :: cs) (hp : p c = true) :
    s.eatWhile p = s.bumps (1 + (cs.takeWhile p).length) := by
  rw [eatWhile_eq, h, List.takeWhile_cons_of_pos hp, List.length_cons, Nat.add_comm]

/-- From the one session to the other `n` code points have been read, with checkpoints of its own.
The checkpoint itself may have moved. -/
structure Reads (s : Session) (n : Nat) (t : Session) : Prop where
  calls : ∃ own, t.calls = s.calls ++ own ∧ OwnCheckpoints own
  cursor : t.cursor = { s.cursor.skip n with saved := t.cursor.saved }

namespace Reads

variable {s t u : Session} {m n : Nat}

theorem refl (s : Session) : s.Reads 0 s :=
  ⟨⟨[], by simp, ⟨nofun, by simp⟩⟩, rfl⟩

theorem ahead (h : s.Reads n t) : t.cursor.ahead = s.cursor.ahead.drop n := by
  rw [h.cursor, Cursor.skip_eq]

theorem start (h : s.Reads n t) : t.cursor.start = s.cursor.start := by
  rw [h.cursor, Cursor.skip_eq]

theorem stop (h : s.Reads n t) :
    t.cursor.stop = s.cursor.stop + width (s.cursor.ahead.take n) := by
  rw [h.cursor, Cursor.skip_eq]

theorem trans (h : s.Reads m t) (h' : t.Reads n u) : s.Reads (m + n) u := by
  obtain ⟨own, hown, hkept⟩ := h.calls
  obtain ⟨more, hmore, hkept'⟩ := h'.calls
  refine ⟨⟨own ++ more, by rw [hmore, hown, List.append_assoc], hkept.append hkept'⟩, ?_⟩
  rw [h'.cursor, h.cursor, Cursor.skip_eq, Cursor.skip_eq, Cursor.skip_eq]
  simp [List.take_add, Nat.add_assoc]

end Reads

/-- A call that moves the cursor on, and nothing else, reads what it passes. -/
theorem reads_call {s : Session} {n : Nat} {c : Cursor.Call} (hflush : c ≠ .flush)
    (hrestore : c ≠ .restore)
    (h : c.apply s.cursor = { s.cursor.skip n with saved := (c.apply s.cursor).saved }) :
    s.Reads n (s.call c) := by
  refine ⟨⟨[c], rfl, ?_, ?_⟩, ?_⟩
  · simpa using Ne.symm hflush
  · intro before after heq
    have hmem : .restore ∈ [c] := by simp [heq]
    exact absurd (List.mem_singleton.mp hmem).symm hrestore
  · rw [cursor_call]
    exact h

theorem reads_bump (s : Session) : s.Reads 1 s.bump :=
  reads_call nofun nofun (by rw [Cursor.Call.apply, Cursor.advance_eq_skip, Cursor.skip_eq])

theorem reads_skip (n : Nat) (s : Session) : s.Reads n (s.skip n) :=
  reads_call nofun nofun (by rw [Cursor.Call.apply, Cursor.skip_eq])

theorem reads_save (s : Session) : s.Reads 0 s.save :=
  reads_call nofun nofun rfl

theorem reads_bumps (n : Nat) (s : Session) : s.Reads n (s.bumps n) := by
  induction n with
  | zero =>
    rw [bumps_zero]
    exact .refl s
  | succ n ih =>
    rw [← bumps_bump]
    exact ih.trans (reads_bump _)

@[simp] theorem ahead_bumps (n : Nat) (s : Session) :
    (s.bumps n).cursor.ahead = s.cursor.ahead.drop n := (reads_bumps n s).ahead

theorem saved_bumps (n : Nat) (s : Session) : (s.bumps n).cursor.saved = s.cursor.saved := by
  induction n with
  | zero => rw [bumps_zero]
  | succ n ih =>
    rw [← bumps_bump, bump, cursor_call, Cursor.Call.apply, Cursor.advance_eq_skip, Cursor.skip_eq,
      ih]

/-- Advancing and going back to the checkpoint set before leaves the cursor where it was. -/
theorem reads_restore (n : Nat) (s : Session) : s.Reads 0 (s.save.bumps n).restore := by
  refine ⟨⟨.save :: (List.replicate n .advance ++ [.restore]), ?_, .save ?_⟩, ?_⟩
  · simp [restore, bumps, save, call]
  · simp
  · have hsaved : (s.save.bumps n).cursor.saved = s.cursor.stop := by
      rw [saved_bumps, save, cursor_call]
      rfl
    have hcursor := (reads_bumps n s.save).cursor
    rw [restore, cursor_call, Cursor.Call.apply, Cursor.restore, hsaved, hcursor, save, cursor_call,
      Cursor.Call.apply, Cursor.save, Cursor.skip_eq, Cursor.skip_eq]
    simp [← s.placed.ahead]

theorem length_ahead_eat (ch : Char) (s : Session) :
    (s.eat ch).2.cursor.ahead.length ≤ s.cursor.ahead.length := by
  unfold eat
  split
  · simp
  · exact Nat.le_refl _

theorem length_ahead_bump_eat {s : Session} {c : CodePoint} (h : s.peek = some c) (ch : Char) :
    (s.bump.eat ch).2.cursor.ahead.length < s.cursor.ahead.length :=
  Nat.lt_of_le_of_lt (s.bump.length_ahead_eat ch) (length_ahead_bump h)

theorem length_ahead_save_eat {s : Session} {c : CodePoint} (h : s.peek = some c) (ch : Char) :
    (s.save.bump.eat ch).2.cursor.ahead.length < s.cursor.ahead.length := by
  have hpeek : s.save.peek = some c := by rw [peek_eq, ahead_save, ← peek_eq, h]
  have hlt := length_ahead_bump_eat hpeek ch
  rwa [ahead_save] at hlt

theorem eat_pos {ch : Char} {s : Session} (h : Expression.next ch s.cursor.ahead = true) :
    s.eat ch = (true, s.bumps 1) := by
  rw [eat, sees_eq, if_pos h, bumps_one]

theorem eat_neg {ch : Char} {s : Session} (h : ¬Expression.next ch s.cursor.ahead = true) :
    s.eat ch = (false, s) := by
  rw [eat, sees_eq, if_neg h]

theorem ahead_bumps_one {s : Session} {c : CodePoint} {cs : List CodePoint}
    (hs : s.cursor.ahead = c :: cs) (n : Nat) : (s.bumps (1 + n)).cursor.ahead = cs.drop n := by
  rw [ahead_bumps, hs, Nat.add_comm, List.drop_succ_cons]

/-- Behind a code point, a character is eaten or it is not there. -/
theorem bump_eat_cases {s : Session} {c : CodePoint} {cs : List CodePoint}
    (hs : s.cursor.ahead = c :: cs) (ch : Char) :
    (∃ ds, cs = ch.toNat :: ds ∧ s.bump.eat ch = (true, s.bumps 2)) ∨
      (Expression.next ch cs = false ∧ s.bump.eat ch = (false, s.bumps 1)) := by
  have hrest : (s.bumps 1).cursor.ahead = cs := ahead_bumps_one hs 0
  rw [← bumps_one]
  cases cs with
  | nil => exact .inr ⟨rfl, eat_neg (by rw [hrest]; exact Bool.false_ne_true)⟩
  | cons d ds =>
    by_cases hd : d = ch.toNat
    · have hnext : Expression.next ch (d :: ds) = true := beq_iff_eq.mpr hd
      exact .inl ⟨ds, by rw [hd], by rw [eat_pos (by rw [hrest]; exact hnext), bumps_bumps]⟩
    · have hnext : Expression.next ch (d :: ds) = false := beq_eq_false_iff_ne.mpr hd
      exact .inr ⟨hnext, eat_neg (by rw [hrest, hnext]; exact Bool.false_ne_true)⟩

/-- The text of a token is that of the code points read since it was begun. -/
theorem Reads.text? {s t : Session} {n : Nat} (h : s.Reads n t)
    (hs : s.cursor.start = s.cursor.stop) :
    t.cursor.text? = some (String.ofList ((s.cursor.ahead.take n).map Utf16.toChar)) := by
  have hunits : t.cursor.units = s.cursor.units := by rw [h.cursor, Cursor.skip_eq]
  have hle : t.cursor.start ≤ t.cursor.stop := by
    rw [h.start, h.stop, hs]
    exact Nat.le_add_right _ _
  have hslice := Cursor.slice_width s.cursor.units s.cursor.stop s.cursor.limit n
  rw [← s.placed.ahead] at hslice
  rw [Cursor.text?, if_pos hle, h.start, h.stop, hunits, hs, Utf16.text]
  exact congrArg (fun cs => some (String.ofList (cs.map Utf16.toChar))) hslice

/-- Code points have been read, and the stack and the depth are as they were. -/
structure Advances (s : Session) (n : Nat) (t : Session) : Prop extends s.Reads n t where
  stack : t.stack = s.stack
  depth : t.depth = s.depth

theorem Advances.trans {s t u : Session} {m n : Nat} (h : s.Advances m t) (h' : t.Advances n u) :
    s.Advances (m + n) u :=
  ⟨h.toReads.trans h'.toReads, h'.stack.trans h.stack, h'.depth.trans h.depth⟩

theorem Advances.of_eq {s t : Session} {m n : Nat} (h : s.Advances m t) (heq : m = n) :
    s.Advances n t := heq ▸ h

theorem Advances.refl (s : Session) : s.Advances 0 s := ⟨.refl s, rfl, rfl⟩

theorem advances_bumps (n : Nat) (s : Session) : s.Advances n (s.bumps n) :=
  ⟨reads_bumps n s, rfl, rfl⟩

theorem advances_eatWhile (p : CodePoint → Bool) (s : Session) :
    s.Advances (s.cursor.ahead.takeWhile p).length (s.eatWhile p) := by
  rw [eatWhile_eq]
  exact advances_bumps _ s

theorem advances_skip (n : Nat) (s : Session) : s.Advances n (s.skip n) :=
  ⟨reads_skip n s, rfl, rfl⟩

theorem advances_save (s : Session) : s.Advances 0 s.save := ⟨reads_save s, rfl, rfl⟩

theorem advances_restore (n : Nat) (s : Session) : s.Advances 0 (s.save.bumps n).restore :=
  ⟨reads_restore n s, rfl, rfl⟩

theorem Advances.bumps {s t : Session} {m : Nat} (h : s.Advances m t) (n : Nat) :
    s.Advances (m + n) (t.bumps n) := h.trans (advances_bumps n t)

theorem Advances.save_bumps {s t : Session} {m : Nat} (h : s.Advances m t) (n : Nat) :
    s.Advances (m + n) (t.save.bumps n) := (h.trans (advances_save t)).bumps n

theorem Advances.restore {s t : Session} {m : Nat} (h : s.Advances m t) (n : Nat) :
    s.Advances m (t.save.bumps n).restore := h.trans (advances_restore n t)

/-! ## Reading one token -/

/-- The session has found the token of the step: the outcome is its kind and the session behind it,
and the stack has moved with it. -/
structure Performs (s : Session) (step : Step) (outcome : Option Kind × Session) : Prop where
  kind : outcome.1 = step.kind
  reads : s.Reads step.length outcome.2
  stack : outcome.2.stack.map UInt32.toNat = step.move.apply (s.stack.map UInt32.toNat)

section

variable {s t : Session} {n : Nat}

theorem Advances.exhausted (h : s.Advances 0 t) : s.Performs .exhausted (none, t) :=
  ⟨rfl, h.toReads, congrArg _ h.stack⟩

theorem Advances.token (h : s.Advances n t) (kind : Kind) :
    s.Performs (.token kind n) (some kind, t) :=
  ⟨rfl, h.toReads, congrArg _ h.stack⟩

theorem Advances.pushes (h : s.Advances n t) (kind : Kind) (state : UInt32) :
    s.Performs ((Step.token kind n).moving (.push state.toNat)) (some kind, t.push state) :=
  ⟨rfl, ⟨h.calls, h.cursor⟩, by simp [push, h.stack, Step.moving, StackMove.apply]⟩

theorem Advances.pops (h : s.Advances n t) (kind : Kind) :
    s.Performs ((Step.token kind n).moving .pop) (some kind, t.pop) :=
  ⟨rfl, ⟨h.calls, h.cursor⟩, by simp [pop, h.stack, Step.moving, StackMove.apply, List.map_tail]⟩

/-- A token that is found behind nothing is found in front of it. -/
theorem Advances.performs {step : Step} {outcome : Option Kind × Session} (h : s.Advances 0 t)
    (h' : t.Performs step outcome) : s.Performs step outcome := by
  refine ⟨h'.kind, ?_, ?_⟩
  · simpa using h.toReads.trans h'.reads
  · rw [h'.stack, h.stack]

theorem Advances.sets (h : s.Advances n t) (kind : Kind) (state : UInt32) :
    s.Performs ((Step.token kind n).moving (.replace state.toNat)) (some kind, t.set state) :=
  ⟨rfl, ⟨h.calls, h.cursor⟩, by
    simp [set, push, pop, h.stack, Step.moving, StackMove.apply, List.map_tail]⟩

end

end Session

/-- How a lexer works on one token, given the state in which it is read. It may fail, which a lexer
must never do. -/
abbrev Work := UInt32 → Session → Option (Option Kind × Session)

/-- The work never fails, and it finds the tokens of the rule. -/
def Work.Implements (work : Work) (rule : Rule) : Prop :=
  ∀ state s, s.cursor.start = s.cursor.stop →
    ∃ outcome, work state s = some outcome ∧
      s.Performs (rule state.toNat s.cursor.ahead) outcome

/-! ## Machines -/

/-- A session with the current token and the state in which it was begun. -/
structure Machine where
  session : Session := {}
  token : Option Kind := none
  tokenState : UInt32 := 0

/-- What is asked of a machine. -/
inductive Machine.Request where
  /-- Start over a region of a buffer in a state and read the first token. -/
  | start (units : Array UInt16) (first last : Nat) (state : UInt32)
  /-- Read the next token. -/
  | advance

namespace Machine

/-- The same request to a lexer. -/
def Request.call : Request → Lexer.Call
  | start units first last state => .start units first last state.toNat
  | advance => .advance

/-- The calls on the cursor with which the machine begins a token. -/
def Request.opening : Request → List Cursor.Call
  | start units first last _ => [.start units first last, .flush]
  | advance => [.flush]

variable (work : Work)

/-- Begin a token in the state on top of the stack and read it. -/
def advance (m : Machine) : Option Machine :=
  (work m.session.nextState m.session.flush).map fun (token, session) =>
    { session, token, tokenState := m.session.nextState }

/-- Put the machine on a new region and read the first token. Below an initial state other than the
default one lies the default state. -/
def start (m : Machine) (units : Array UInt16) (first last : Nat) (state : UInt32) :
    Option Machine :=
  advance work
    { m with
      session :=
        { m.session.call (.start units first last) with
          stack := if state = 0 then [state] else [state, 0] }
      token := none }

def perform (m : Machine) : Request → Option Machine
  | .start units first last state => m.start work units first last state
  | .advance => m.advance work

/-- The machine after the requests to a new one. -/
def run (requests : List Request) : Option Machine := requests.foldlM (perform work) {}

/-- The machine shows what the scanner shows, and stands where it stands. Checkpoints are not
compared: a scanner sets none. -/
structure Agrees (m : Machine) (s : Scanner) : Prop where
  token : s.token = m.token
  tokenState : s.tokenState = m.tokenState.toNat
  stack : s.stack = m.session.stack.map UInt32.toNat
  cursor : s.cursor = { m.session.cursor with saved := s.cursor.saved }
  default : s.defaultState = 0

variable {work} {rule : Rule}

theorem agrees_new : Agrees {} (Lexer.ofRule rule).fresh := ⟨rfl, rfl, rfl, rfl, rfl⟩

theorem Agrees.nextState {m : Machine} {s : Scanner} (h : m.Agrees s) :
    s.nextState = m.session.nextState.toNat := by
  rw [Scanner.nextState, h.stack, h.default, Session.nextState]
  cases m.session.stack with
  | nil => rfl
  | cons => rfl

/-- One token, read by a machine and by a scanner that agree. -/
theorem Agrees.advance (hwork : work.Implements rule) {m : Machine} {s : Scanner}
    (h : m.Agrees s) :
    ∃ m' own, m.advance work = some m' ∧ m'.Agrees (s.advance rule) ∧
      m'.session.calls = m.session.calls ++ .flush :: own ∧ OwnCheckpoints own := by
  have hflush : m.session.flush.cursor = m.session.cursor.flush := Session.cursor_call _ _
  obtain ⟨⟨token, t⟩, hsome, hperforms⟩ :=
    hwork m.session.nextState m.session.flush (by rw [hflush]; rfl)
  obtain ⟨own, hown, hkept⟩ := hperforms.reads.calls
  have hahead : s.cursor.ahead = m.session.cursor.ahead := by rw [h.cursor]
  have hstep : rule s.nextState s.cursor.ahead
      = rule m.session.nextState.toNat m.session.flush.cursor.ahead := by
    rw [h.nextState, hahead, hflush]
    rfl
  refine ⟨⟨t, token, m.session.nextState⟩, own, ?_, ⟨?_, ?_, ?_, ?_, ?_⟩, ?_, hkept⟩
  · rw [Machine.advance, hsome]
    rfl
  · exact (congrArg Step.kind hstep).trans hperforms.kind.symm
  · exact h.nextState
  · refine Eq.trans ?_ hperforms.stack.symm
    rw [← hstep]
    exact congrArg (rule s.nextState s.cursor.ahead).move.apply h.stack
  · have hskip : (s.advance rule).cursor
        = s.cursor.flush.skip (rule s.nextState s.cursor.ahead).length := rfl
    rw [hskip, hstep, hperforms.reads.cursor, hflush, h.cursor, Cursor.skip_eq, Cursor.skip_eq]
    rfl
  · exact h.default
  · rw [hown]
    simp [Session.flush, Session.call]

theorem Agrees.start (hwork : work.Implements rule) {m : Machine} {s : Scanner} (h : m.Agrees s)
    (units : Array UInt16) (first last : Nat) (state : UInt32) :
    ∃ m' own, m.start work units first last state = some m' ∧
      m'.Agrees ((s.start (Cursor.ofRegion units first last) state.toNat).advance rule) ∧
      m'.session.calls = m.session.calls ++ .start units first last :: .flush :: own ∧
      OwnCheckpoints own := by
  have hstart : Agrees
      { m with
        session :=
          { m.session.call (.start units first last) with
            stack := if state = 0 then [state] else [state, 0] }
        token := none }
      (s.start (Cursor.ofRegion units first last) state.toNat) := by
    refine ⟨rfl, h.tokenState, ?_, ?_, h.default⟩
    · have hzero : state.toNat = 0 ↔ state = 0 := UInt32.toNat_inj (b := 0)
      simp only [Scanner.start, h.default, hzero]
      split
      · rfl
      · rfl
    · have hcall : (m.session.call (.start units first last)).cursor
          = Cursor.ofRegion units first last := Session.cursor_call _ _
      show Cursor.ofRegion units first last
        = { (m.session.call (.start units first last)).cursor with
            saved := (Cursor.ofRegion units first last).saved }
      rw [hcall]
  obtain ⟨m', own, hsome, hagrees, hcalls, hkept⟩ := hstart.advance hwork
  refine ⟨m', own, hsome, hagrees, ?_, hkept⟩
  rw [hcalls]
  simp [Session.call]

/-- Whatever is asked of a machine, it answers like the lexer, and begins a token before it reads it
with checkpoints of its own. -/
theorem Agrees.perform (hwork : work.Implements rule) {m : Machine} {s : Scanner}
    (h : m.Agrees s) (request : Request) :
    ∃ m' own, m.perform work request = some m' ∧
      m'.Agrees ((Lexer.ofRule rule).perform s request.call) ∧
      m'.session.calls = m.session.calls ++ (request.opening ++ own) ∧ OwnCheckpoints own := by
  cases request with
  | start units first last state => exact h.start hwork units first last state
  | advance => exact h.advance hwork

theorem run_concat (requests : List Request) (request : Request) :
    run work (requests ++ [request]) = (run work requests).bind (perform work · request) := by
  simp [run, List.foldlM_append]

theorem after_concat (lexer : Lexer) (history : List Lexer.Call) (call : Lexer.Call) :
    lexer.after (history ++ [call]) = lexer.perform (lexer.after history) call := by
  simp [Lexer.after]

theorem disciplined_opening {calls own : List Cursor.Call} (h : Disciplined calls)
    (hown : OwnCheckpoints own) (request : Request) :
    Disciplined (calls ++ (request.opening ++ own)) := by
  cases request with
  | advance => exact h.append hown
  | start units first last state =>
    have hstart : Disciplined (calls ++ [.start units first last]) := h.concat nofun
    simpa [Request.opening] using hstart.append hown

/-- The machine answers all requests, it agrees with the lexer of the rule, and the calls on its
cursor are disciplined. -/
theorem run_agrees (hwork : work.Implements rule) (requests : List Request) :
    ∃ m, run work requests = some m ∧
      m.Agrees ((Lexer.ofRule rule).after (requests.map Request.call)) ∧
      Disciplined m.session.calls := by
  induction requests using List.reverseRecOn with
  | nil => exact ⟨{}, rfl, agrees_new, .of_not_mem List.not_mem_nil⟩
  | append_singleton requests request ih =>
    obtain ⟨m, hrun, hagrees, hdisciplined⟩ := ih
    obtain ⟨m', own, hperform, hagrees', hcalls, hkept⟩ := hagrees.perform hwork request
    refine ⟨m', ?_, ?_, ?_⟩
    · rw [run_concat, hrun]
      exact hperform
    · rw [List.map_append, List.map_singleton, after_concat]
      exact hagrees'
    · rw [hcalls]
      exact disciplined_opening hdisciplined hkept request

end Machine

end XQuery
