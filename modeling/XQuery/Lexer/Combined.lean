import XQuery.Lexer.Documentation

/-!
# Combined lexers

A language lexer that hands parts of the input over to sub-lexers. After a token for which a
sub-lexer is registered, that sub-lexer reads on; once it has no token the language lexer resumes
there in the state named at registration. A combined state is the id of the active sub-lexer, zero
for the language lexer, plus the active lexer's own state.
-/

namespace XQuery

/-- Combined states below this number belong to the language lexer; an id is a multiple of it. -/
def idUnit : Nat := 0x10000000

/-- A sub-lexer and when it reads. -/
structure SubLexer where
  lexer : Lexer
  /-- The id of the sub-lexer in combined states. -/
  id : Nat
  /-- The state in which the language lexer resumes. -/
  parent : Nat
  /-- The state in which the sub-lexer starts. -/
  child : Nat
  /-- The token after which the sub-lexer takes over. -/
  token : Kind

/-- Why a sub-lexer is refused. -/
inductive RegistrationError where
  /-- The id is zero or no multiple of `idUnit`. -/
  | badId (id : Nat)
  /-- Another sub-lexer has the id. -/
  | duplicateId (id : Nat)
deriving DecidableEq

/-- A number in hexadecimal, as messages show it. -/
def hexText (n : Nat) : String := "0x" ++ String.ofList (Nat.toDigits 16 n)

/-- The text of the error. -/
def RegistrationError.message : RegistrationError → String
  | badId id => s!"sub-lexer id {hexText id} outside LEXER_MASK"
  | duplicateId id => s!"sub-lexer id {hexText id} registered twice"

/-- A language lexer with its sub-lexers, the latest registered first. -/
structure Combined where
  language : Lexer
  subLexers : List SubLexer := []

namespace Combined

/-- Register a sub-lexer. Its id must be a new, non-zero multiple of `idUnit`; for one token the
latest registration counts. -/
def register (c : Combined) (s : SubLexer) : Except RegistrationError Combined :=
  if s.id = 0 ∨ s.id % idUnit ≠ 0 then .error (.badId s.id)
  else if c.subLexers.any (·.id == s.id) then .error (.duplicateId s.id)
  else
    let s := { s with parent := s.parent % idUnit, child := s.child % idUnit }
    .ok { c with subLexers := s :: c.subLexers }

variable (c : Combined)

/-- The place of a sub-lexer in the list. -/
abbrev Index : Type := Fin c.subLexers.length

/-- The sub-lexer at a place. -/
def sub (i : c.Index) : SubLexer := c.subLexers.get i

/-- The first sub-lexer that satisfies `p`. -/
def find? (p : SubLexer → Bool) : Option c.Index :=
  (List.finRange c.subLexers.length).find? fun i => p (c.sub i)

/-- The memories of all lexers, and which sub-lexer is active. A lexer that is not active keeps what
it remembered when it was left. -/
structure Memory where
  language : c.language.Memory
  subs : (i : c.Index) → (c.sub i).lexer.Memory
  active : Option c.Index

variable {c} in
/-- Replace what one sub-lexer remembers. -/
def Memory.setSub (m : c.Memory) (i : c.Index) (s : (c.sub i).lexer.Memory) : c.Memory :=
  { m with subs := fun j => if h : j = i then h ▸ s else m.subs j }

/-- The cursor of the active lexer. -/
def cursor (m : c.Memory) : Cursor :=
  match m.active with
  | none => c.language.cursor m.language
  | some i => (c.sub i).lexer.cursor (m.subs i)

/-- The kind of the active lexer's token. -/
def kind (m : c.Memory) : Option Kind :=
  match m.active with
  | none => c.language.kind m.language
  | some i => (c.sub i).lexer.kind (m.subs i)

/-- The combined state. -/
def state (m : c.Memory) : Nat :=
  match m.active with
  | none => c.language.state m.language % idUnit
  | some i => (c.sub i).id + (c.sub i).lexer.state (m.subs i) % idUnit

/-- Resume the language lexer if the active sub-lexer has no token. -/
def settle (m : c.Memory) : c.Memory :=
  match m.active with
  | none => m
  | some i =>
      if ((c.sub i).lexer.kind (m.subs i)).isSome then m
      else
        { m with
          language := c.language.start m.language
            ((c.sub i).lexer.cursor (m.subs i)).resume (c.sub i).parent
          active := none }

/-- Let a sub-lexer read from a cursor on. -/
def enter (m : c.Memory) (i : c.Index) (position : Cursor) (state : Nat) : c.Memory :=
  c.settle { m.setSub i ((c.sub i).lexer.start (m.subs i) position state) with active := some i }

/-- Start in the lexer that the state names; the language lexer reads where no sub-lexer has the
id. -/
def start (m : c.Memory) (position : Cursor) (state : Nat) : c.Memory :=
  let inner := state % idUnit
  match c.find? (fun s => s.id == state - inner) with
  | some i => c.enter m i position inner
  | none => { m with language := c.language.start m.language position inner, active := none }

/-- Read the next token, by a sub-lexer if the current token hands over to one. -/
def advance (m : c.Memory) : c.Memory :=
  match m.active with
  | some i => c.settle (m.setSub i ((c.sub i).lexer.advance (m.subs i)))
  | none =>
      match (c.language.kind m.language).bind fun k => c.find? (·.token == k) with
      | some i => c.enter m i (c.language.cursor m.language).resume (c.sub i).child
      | none => { m with language := c.language.advance m.language }

/-- The combined lexer as a lexer. -/
def lexer : Lexer where
  Memory := c.Memory
  fresh := ⟨c.language.fresh, fun i => (c.sub i).lexer.fresh, none⟩
  start := c.start
  advance := c.advance
  kind := c.kind
  state := c.state
  cursor := c.cursor

end Combined

/-- The id of the documentation lexer in the states of `Lexer.documented`. -/
def documentationId : Nat := 0x10000000

/-- The expression lexer with documentation comments read by the documentation lexer. -/
def Combined.documented : Combined where
  language := .expression
  subLexers :=
    [{ lexer := .documentation
       id := documentationId
       parent := Expression.Mode.comment.code
       child := Documentation.Mode.lineStart.code
       token := .docCommentMarker }]

/-- The lexer for expressions and their documentation. -/
def Lexer.documented : Lexer := Combined.documented.lexer

end XQuery
