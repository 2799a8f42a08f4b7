import XQuery.Number.Digits
import XQuery.Pattern.Basic
import XQuery.Text.Alphabetic
import XQuery.Text.Blank
import XQuery.Text.Split

/-!
# Reading patterns

A pattern is read from left to right, with the groups that are open on a stack. It comes from a
text in which no brace is closed behind an open one; so a count in braces is never complete, nor is
anything else that is written with braces.
-/

namespace XQuery.Pattern

/-! ## White space and comments -/

/-- What is left after white space and comments, of which `comment` tells whether one is open. -/
def skipBlanks : (comment : Bool) → List Char → List Char
  | _, [] => []
  | true, c :: cs => skipBlanks (c != '\n') cs
  | false, c :: cs =>
      if Text.isBlank c then skipBlanks false cs
      else if c = '#' then skipBlanks true cs
      else c :: cs

/-- What is left after that which the spaced mode passes over. -/
def settle (spaced : Bool) (cs : List Char) : List Char :=
  if spaced then skipBlanks false cs else cs

/-- The character that decides what a hyphen is. It is also looked for at the start of a comment. -/
def peek (spaced : Bool) (cs : List Char) : Option Char :=
  if spaced then
    match cs.dropWhile Text.isBlank with
    | '#' :: cs => (cs.dropWhile Text.isBlank).head?
    | cs => cs.head?
  else cs.head?

/-! ## Characters -/

/-- Whether the character is a hexadecimal digit. -/
def isHexDigit (c : Char) : Bool :=
  c.isDigit || ('a' ≤ c && c ≤ 'f') || ('A' ≤ c && c ≤ 'F')

/-- Read `n` hexadecimal digits. -/
def hexDigits? (spaced : Bool) : (n : Nat) → List Char → Option (List Char × List Char)
  | 0, cs => some ([], cs)
  | n + 1, cs =>
      match settle spaced cs with
      | [] => none
      | c :: cs =>
          if isHexDigit c then
            (hexDigits? spaced n cs).map fun (digits, cs) => (c :: digits, cs)
          else none

/-- The character with this number; surrogates are none. -/
def charOf? (n : Nat) : Option Char :=
  if n < 0xD800 ∨ (0xDFFF < n ∧ n < 0x110000) then some (Char.ofNat n) else none

/-- Read a character as `n` hexadecimal digits, where two of them are a byte. -/
def hexSymbol? (spaced : Bool) (n : Nat) (cs : List Char) : Option (Atom × List Char) := do
  let (digits, cs) ← hexDigits? spaced n cs
  let char ← charOf? (Digits.hexValue digits)
  return (.symbol { char, byte := n == 2 }, cs)

/-- The letters that stand for a character after a backslash. -/
def controls : List (Char × Char) :=
  [('a', '\x07'), ('f', '\x0c'), ('t', '\t'), ('n', '\n'), ('r', '\r'), ('v', '\x0b')]

/-- Read what follows a backslash. A sign of ASCII stands for itself. -/
def escape? (spaced : Bool) : List Char → Option (Atom × List Char)
  | [] => none
  | 'x' :: cs => hexSymbol? spaced 2 cs
  | 'u' :: cs => hexSymbol? spaced 4 cs
  | 'U' :: cs => hexSymbol? spaced 8 cs
  | c :: cs =>
      if c = 'p' ∨ c = 'P' then
        match settle spaced cs with
        | [] => none
        | letter :: cs => some (.category letter, cs)
      else if "dsw".toList.contains c then some (.shorthand false, cs)
      else if "DSW".toList.contains c then some (.shorthand true, cs)
      else if c = 'A' ∨ c = 'z' then some (.anchor, cs)
      else if "bB<>".toList.contains c then some (.wordBoundary, cs)
      else
        match controls.lookup c with
        | some char => some (.symbol { char }, cs)
        | none =>
            if c.toNat < 0x80 ∧ !c.isAlphanum then some (.symbol { char := c }, cs) else none

/-! ## Sets -/

/-- The names of the classes that stand between colons. -/
def classNames : List String :=
  ["alnum", "alpha", "ascii", "blank", "cntrl", "digit", "graph", "lower", "print", "punct",
   "space", "upper", "word", "xdigit"]

/-- Read a named class after its opening bracket, as in `[:alpha:]` and `[:^alpha:]`. -/
def namedClass? : List Char → Option (CharSet × List Char)
  | ':' :: cs =>
      let (negated, cs) : Bool × List Char :=
        match cs with
        | '^' :: cs => (true, cs)
        | cs => (false, cs)
      match Text.splitAtFirst? (· == ':') cs with
      | some (name, ']' :: cs) =>
          if classNames.contains (String.ofList name) then some (.shorthand negated, cs) else none
      | _ => none
  | _ => none

/-- Read an atom in a set, where only the backslash is special. -/
def setAtom? (spaced : Bool) : List Char → Option (Atom × List Char)
  | [] => none
  | '\\' :: cs => escape? spaced cs
  | c :: cs => some (.symbol { char := c }, cs)

/-- The set of the characters of an atom, which must be neither an anchor nor a word boundary. -/
def CharSet.ofAtom? : Atom → Option CharSet
  | .symbol s => some (.symbol s)
  | .shorthand negated => some (.shorthand negated)
  | .category letter => some (.category letter)
  | _ => none

/-- The range between two characters, which must be in order. -/
def CharSet.range? : Atom → Atom → Option CharSet
  | .symbol first, .symbol last =>
      if first.char ≤ last.char then some (.range first last) else none
  | _, _ => none

/-- Read a character, a class or a range in a set. A hyphen before another one or before the end of
the set is no range. -/
def setItem? (spaced : Bool) (cs : List Char) : Option (CharSet × List Char) := do
  let (first, cs) ← setAtom? spaced cs
  match settle spaced cs with
  | [] => none
  | '-' :: after =>
      if peek spaced after = some ']' ∨ peek spaced after = some '-' then
        return (← CharSet.ofAtom? first, '-' :: after)
      else
        let (last, cs) ← setAtom? spaced (settle spaced after)
        return (← CharSet.range? first last, cs)
  | cs => return (← CharSet.ofAtom? first, cs)

/-- Read hyphens at the start of a set; there are at most `n`. -/
def hyphens (spaced : Bool) : (n : Nat) → List Char → List CharSet × List Char
  | 0, cs => ([], cs)
  | n + 1, cs =>
      match settle spaced cs with
      | '-' :: cs =>
          let (items, cs) := hyphens spaced n cs
          (.symbol { char := '-' } :: items, cs)
      | cs => ([], cs)

/-- Read the start of a set: whether it is negated, and the characters that are special elsewhere in
the set only. -/
def setStart (spaced : Bool) (cs : List Char) : Bool × List CharSet × List Char :=
  let (negated, cs) : Bool × List Char :=
    match settle spaced cs with
    | '^' :: cs => (true, cs)
    | cs => (false, cs)
  match hyphens spaced cs.length cs with
  | ([], ']' :: cs) => (negated, [.symbol { char := ']' }], cs)
  | (items, cs) => (negated, items, cs)

/-- One set of these, the last one first. -/
def CharSet.ofReversed : List CharSet → CharSet
  | [] => .empty
  | [set] => set
  | sets => .union sets.reverse

/-- A set behind the operation with the set to its left, if there is one. -/
def CharSet.withLeft (left : Option CharSet) (set : CharSet) : CharSet :=
  match left with
  | some left => .operation left set
  | none => set

/-- Read a set after its start. `left` is the left side of an open operation and `items` what was
read since, the last one first. -/
def setItems? (spaced : Bool) : (fuel : Nat) → (left : Option CharSet) → (items : List CharSet) →
    List Char → Option (CharSet × List Char)
  | 0, _, _, _ => none
  | fuel + 1, left, items, cs =>
      let soFar := CharSet.withLeft left (.ofReversed items)
      match settle spaced cs with
      | [] => none
      | ']' :: cs => some (soFar, cs)
      | '&' :: '&' :: cs => setItems? spaced fuel (some soFar) [] cs
      | '-' :: '-' :: cs => setItems? spaced fuel (some soFar) [] cs
      | '~' :: '~' :: cs => setItems? spaced fuel (some soFar) [] cs
      | '[' :: cs =>
          match namedClass? cs with
          | some (item, cs) => setItems? spaced fuel left (item :: items) cs
          | none =>
              let (negated, start, cs) := setStart spaced cs
              (setItems? spaced fuel none start.reverse cs).bind fun (set, cs) =>
                setItems? spaced fuel left (.nested negated set :: items) cs
      | cs =>
          (setItem? spaced cs).bind fun (item, cs) =>
            setItems? spaced fuel left (item :: items) cs

/-- Read a set after its opening bracket. -/
def set? (spaced : Bool) (cs : List Char) : Option (Pattern × List Char) := do
  let (negated, start, cs) := setStart spaced cs
  let (set, cs) ← setItems? spaced (cs.length + 1) none start.reverse cs
  return (.bracketed negated set, cs)

/-! ## Groups -/

/-- Read switches up to the colon or the parenthesis behind them. What follows a hyphen is switched
off; there is at most one, it is not the last sign, and no mode is switched twice. -/
def switches? (on dangling : Bool) (read : List Switch) :
    List Char → Option (List Switch × Char × List Char)
  | [] => none
  | c :: cs =>
      if c = ':' ∨ c = ')' then if dangling then none else some (read.reverse, c, cs)
      else if c = '-' then if on then switches? false true read cs else none
      else
        match Mode.ofLetter? c with
        | none => none
        | some mode =>
            if read.any (·.mode = mode) then none
            else switches? on false ({ mode, on } :: read) cs

/-- Whether a group may have this name. -/
def isGroupName : List Char → Bool
  | [] => false
  | c :: cs =>
      (c == '_' || Text.isAlphabetic c) &&
        cs.all fun c => "_.[]".toList.contains c || Text.isAlphanumeric c

/-- What an opening parenthesis stands for. -/
inductive Opening where
  | switches (s : List Switch)
  | group (s : List Switch)
  | named (name : List Char)

/-- Read the name of a group up to the `>` behind it. -/
def groupName? (cs : List Char) : Option (Opening × List Char) :=
  match Text.splitAtFirst? (· == '>') cs with
  | some (name, cs) => if isGroupName name then some (.named name, cs) else none
  | none => none

/-- Read what follows an opening parenthesis. -/
def opening? : List Char → Option (Opening × List Char)
  | '?' :: 'P' :: '<' :: cs => groupName? cs
  | '?' :: '<' :: cs => groupName? cs
  | '?' :: cs =>
      match switches? true false [] cs with
      | some (s, ':', cs) => some (.group s, cs)
      | some (s@(_ :: _), _, cs) => some (.switches s, cs)
      | _ => none
  | cs => some (.group [], cs)

/-! ## Patterns -/

/-- What is read of the sequences inside one pair of parentheses, the last item first. -/
structure Level where
  /-- The finished alternatives. -/
  branches : List Pattern := []
  /-- The items of the alternative that is being read. -/
  items : List Pattern := []
  spaced : Bool := false

namespace Level

/-- Add an item to the alternative that is being read. -/
def push (l : Level) (p : Pattern) : Level := { l with items := p :: l.items }

/-- The pattern of one alternative. -/
def branch (l : Level) : Pattern :=
  match l.items with
  | [] => .empty
  | [p] => p
  | ps => .sequence ps.reverse

/-- The pattern of all alternatives. -/
def pattern (l : Level) : Pattern :=
  match l.branches with
  | [] => l.branch
  | branches => .alternation (l.branch :: branches).reverse

end Level

/-- A group that is open: what stands around it and its own switches. -/
structure OpenGroup where
  outer : Level
  switches : List Switch

/-- What is read of a pattern. -/
structure Progress where
  level : Level := {}
  groups : List OpenGroup := []
  /-- The names of the groups. -/
  names : List (List Char) := []

namespace Progress

/-- Add an item. -/
def push (p : Progress) (item : Pattern) : Progress := { p with level := p.level.push item }

/-- Open a group. -/
def openGroup (p : Progress) (s : List Switch) : Progress :=
  { p with
    level := { spaced := Switch.apply .spaced p.level.spaced s }
    groups := { outer := p.level, switches := s } :: p.groups }

/-- Carry out what an opening parenthesis stands for. No two groups have the same name. -/
def opened? (p : Progress) : Opening → Option Progress
  | .switches s =>
      let p := p.push (.switches s)
      some { p with level.spaced := Switch.apply .spaced p.level.spaced s }
  | .group s => some (p.openGroup s)
  | .named name =>
      if p.names.contains name then none
      else some { p.openGroup [] with names := name :: p.names }

/-- Close the innermost group. -/
def closed? (p : Progress) : Option Progress :=
  match p.groups with
  | [] => none
  | g :: groups =>
      some { p with level := g.outer.push (.group g.switches p.level.pattern), groups }

/-- Repeat the last item, which must be something that can match. -/
def repeated? (p : Progress) : Option Progress :=
  match p.level.items with
  | [] => none
  | .switches _ :: _ => none
  | item :: items => some { p with level.items := .repeated item :: items }

/-- End an alternative. -/
def nextBranch (p : Progress) : Progress :=
  { p with
    level := { branches := p.level.branch :: p.level.branches, spaced := p.level.spaced } }

/-- Read one item, group sign or operator. -/
def step? (p : Progress) (c : Char) (cs : List Char) : Option (Progress × List Char) :=
  match c with
  | '(' => do
      let (opening, cs) ← opening? (settle p.level.spaced cs)
      return (← p.opened? opening, cs)
  | ')' => p.closed?.map (·, cs)
  | '|' => some (p.nextBranch, cs)
  | '[' => (set? p.level.spaced cs).map fun (item, cs) => (p.push item, cs)
  | '\\' => (escape? p.level.spaced cs).map fun (a, cs) => (p.push (.atom a), cs)
  | '?' | '*' | '+' => p.repeated?.map (·, (Text.strip? ['?'] cs).getD cs)
  | '\x7b' => none
  | '.' => some (p.push (.atom .any), cs)
  | '^' | '$' => some (p.push (.atom .anchor), cs)
  | c => some (p.push (.atom (.symbol { char := c })), cs)

/-- Read the rest of a pattern. -/
def finish? : (fuel : Nat) → Progress → List Char → Option Pattern
  | 0, _, _ => none
  | fuel + 1, p, cs =>
      match settle p.level.spaced cs with
      | [] => if p.groups.isEmpty then some p.level.pattern else none
      | c :: cs => (p.step? c cs).bind fun (p, cs) => finish? fuel p cs

end Progress

/-- Read a pattern. Every step reads a character, which bounds their number. -/
def read? (cs : List Char) : Option Pattern := Progress.finish? (cs.length + 1) {} cs

/-- Whether the text is a pattern that can be searched for. -/
def isValid (cs : List Char) : Bool := (read? cs).any isUsable

end XQuery.Pattern
