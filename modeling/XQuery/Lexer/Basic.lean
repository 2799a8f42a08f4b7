import XQuery.Lexer.Scanner

/-!
# Lexers

A lexer is started over a region of a buffer in some state and then advanced token by token. The
state of a token is a single number from which lexing can be resumed at the start of that token,
so that an editor reads again only the damaged part of a document.
-/

namespace XQuery

/-- A kind of lexer: what it remembers between two tokens and how it moves on. -/
structure Lexer where
  /-- What the lexer remembers. -/
  Memory : Type
  /-- The memory of a lexer that has not been started. -/
  fresh : Memory
  /-- Start at a cursor in a state and read the first token. -/
  start : Memory → Cursor → Nat → Memory
  /-- Read the next token. -/
  advance : Memory → Memory
  /-- The kind of the current token; none once the lexer is exhausted. -/
  kind : Memory → Option Kind
  /-- The state in which the current token was read. -/
  state : Memory → Nat
  /-- The cursor, whose range is the current token. -/
  cursor : Memory → Cursor

namespace Lexer

/-- The lexer that reads every token by one rule; its default state is zero. -/
def ofRule (rule : Rule) : Lexer where
  Memory := Scanner
  fresh := { defaultState := 0 }
  start s c state := (s.start c state).advance rule
  advance s := s.advance rule
  kind s := s.token
  state s := s.tokenState
  cursor s := s.cursor

variable (lexer : Lexer)

/-- The current token. -/
def token? (m : lexer.Memory) : Option Token :=
  (lexer.kind m).map fun kind =>
    { kind, start := (lexer.cursor m).start, stop := (lexer.cursor m).stop, state := lexer.state m }

/-- Collect up to `n` tokens, with the memory after them. -/
def take : Nat → lexer.Memory → List Token × lexer.Memory
  | 0, m => ([], m)
  | n + 1, m =>
      match lexer.token? m with
      | none => ([], m)
      | some t =>
          let (rest, m') := take n (lexer.advance m)
          (t :: rest, m')

/-- All remaining tokens, with the memory of the exhausted lexer. A token has at least one code
point, so there is at most one more token than there are code points ahead. -/
def drain (m : lexer.Memory) : List Token × lexer.Memory :=
  lexer.take ((lexer.cursor m).ahead.length + 1) m

/-- Start over the region of a buffer from `first` to `last`. -/
def startOver (m : lexer.Memory) (units : Array UInt16) (first last state : Nat) : lexer.Memory :=
  lexer.start m (Cursor.ofRegion units first last) state

/-- The tokens of a region, read by a new lexer. -/
def tokens (units : Array UInt16) (first last state : Nat) : List Token :=
  (lexer.drain (lexer.startOver lexer.fresh units first last state)).1

end Lexer

end XQuery
