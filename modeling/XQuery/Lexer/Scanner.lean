import XQuery.Text.Cursor
import XQuery.Token.Kind

/-!
# Scanners

A scanner is a cursor with a stack of states. A *rule* says how a scanner reads one token: given
the state and the code points ahead it names the kind and the length of the token and what becomes
of the stack. The state in which a token was read is reported with it.
-/

namespace XQuery

/-- What reading a token does to the stack of states. -/
inductive StackMove where
  | keep
  | push (state : Nat)
  | pop
  | replace (state : Nat)
deriving DecidableEq

/-- The stack after the move; popping an empty stack leaves it empty. -/
def StackMove.apply : StackMove → List Nat → List Nat
  | keep, stack => stack
  | push s, stack => s :: stack
  | pop, stack => stack.tail
  | replace s, stack => s :: stack.tail

/-- The outcome of reading one token: no kind means that there is none. -/
structure Step where
  kind : Option Kind
  /-- The length of the token in code points. -/
  length : Nat
  move : StackMove := .keep
deriving DecidableEq

namespace Step

/-- Nothing is left to read. -/
def exhausted : Step := ⟨none, 0, .keep⟩

/-- A token that leaves the stack alone. -/
def token (kind : Kind) (length : Nat) : Step := ⟨some kind, length, .keep⟩

/-- The same token with another effect on the stack. -/
def moving (s : Step) (move : StackMove) : Step := { s with move }

end Step

/-- How one token is read in a state from the code points ahead. -/
abbrev Rule := Nat → List CodePoint → Step

/-- A cursor with the stack of states and the current token. -/
structure Scanner where
  /-- The state at the bottom, which an empty stack stands for. -/
  defaultState : Nat
  cursor : Cursor := {}
  token : Option Kind := none
  stack : List Nat := []
  /-- The state in which the current token was begun. -/
  tokenState : Nat := defaultState

namespace Scanner

/-- The state in which the next token will be read. -/
def nextState (s : Scanner) : Nat := s.stack.headD s.defaultState

/-- Put the scanner on a new region. Below an initial state other than the default one lies the
default state, so that popping it goes back there. -/
def start (s : Scanner) (c : Cursor) (state : Nat) : Scanner :=
  { s with
    cursor := c
    stack := if state = s.defaultState then [state] else [state, s.defaultState]
    token := none }

/-- Begin a token at the cursor in the state on top of the stack. -/
def beginToken (s : Scanner) : Scanner :=
  { s with cursor := s.cursor.flush, tokenState := s.nextState }

/-- Change the stack. -/
def move (s : Scanner) (m : StackMove) : Scanner := { s with stack := m.apply s.stack }

/-- Extend the current token by up to `n` code points. -/
def skip (s : Scanner) (n : Nat) : Scanner := { s with cursor := s.cursor.skip n }

/-- Take what a rule found as the current token. -/
def accept (s : Scanner) (step : Step) : Scanner :=
  { (s.skip step.length).move step.move with token := step.kind }

/-- Read the next token by a rule. -/
def advance (rule : Rule) (s : Scanner) : Scanner :=
  let s := s.beginToken
  s.accept (rule s.tokenState s.cursor.ahead)

end Scanner

end XQuery
