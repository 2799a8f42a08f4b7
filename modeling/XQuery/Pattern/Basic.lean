/-!
# Patterns

Regular expressions for text. A pattern is read as a tree, of which not every one can be searched
for: the tree may be too deep, and a pattern must match whole characters, which limits what it may
say while the Unicode mode is off.
-/

namespace XQuery

namespace Pattern

/-- What a letter of `(?imsUuRx)` switches. -/
inductive Mode where
  | ignoreCase
  | lines
  | dotAll
  | reluctant
  | unicode
  | crlf
  /-- White space and comments in the pattern are passed over. -/
  | spaced
deriving DecidableEq, Repr

/-- The mode with this letter. -/
def Mode.ofLetter? : Char → Option Mode
  | 'i' => some ignoreCase
  | 'm' => some lines
  | 's' => some dotAll
  | 'U' => some reluctant
  | 'u' => some unicode
  | 'R' => some crlf
  | 'x' => some spaced
  | _ => none

/-- A mode and whether it is switched on or off. -/
structure Switch where
  mode : Mode
  on : Bool
deriving DecidableEq, Repr

/-- The state of a mode that is in the state `old` before these switches. -/
def Switch.apply (mode : Mode) (old : Bool) (switches : List Switch) : Bool :=
  ((switches.find? (·.mode = mode)).map (·.on)).getD old

/-- A character, which may be written as the two hexadecimal digits of a byte. -/
structure Symbol where
  char : Char
  byte : Bool := false
deriving DecidableEq, Repr

/-- Whether the character is below 128. -/
def Symbol.isAscii (s : Symbol) : Bool := s.char.toNat < 0x80

/-- The smallest patterns. -/
inductive Atom where
  | symbol (s : Symbol)
  /-- Any character: `.`. -/
  | any
  /-- A class of characters with a letter of its own, such as `\d` or `\W`. -/
  | shorthand (negated : Bool)
  /-- The characters of a general category, such as `\pL`. -/
  | category (letter : Char)
  /-- The start or the end of a line or of the text. -/
  | anchor
  /-- The start or the end of a word, or a place that is neither. -/
  | wordBoundary
deriving DecidableEq, Repr

/-- The letters of the general categories, in either case. -/
def isCategory (letter : Char) : Bool := "CLMNPSZclmnpsz".toList.contains letter

/-- The characters that square brackets stand for. -/
inductive CharSet where
  | empty
  | symbol (s : Symbol)
  | range (first last : Symbol)
  /-- A class with a letter or a name of its own. -/
  | shorthand (negated : Bool)
  | category (letter : Char)
  | nested (negated : Bool) (set : CharSet)
  | union (items : List CharSet)
  /-- An intersection or a difference. -/
  | operation (left right : CharSet)

end Pattern

open Pattern in
/-- A regular expression. -/
inductive Pattern where
  | empty
  | switches (s : List Switch)
  | atom (a : Atom)
  | bracketed (negated : Bool) (set : CharSet)
  | repeated (p : Pattern)
  | group (s : List Switch) (p : Pattern)
  | alternation (ps : List Pattern)
  | sequence (ps : List Pattern)

namespace Pattern

/-! ## Depth -/

mutual

/-- How deep a set is nested; single characters and classes have no depth. -/
def CharSet.depth : CharSet → Nat
  | .nested _ set => set.depth + 1
  | .union items => CharSet.depthAll items + 1
  | .operation left right => max left.depth right.depth + 1
  | _ => 0

/-- The depth of the deepest set. -/
def CharSet.depthAll : List CharSet → Nat
  | [] => 0
  | set :: sets => max set.depth (CharSet.depthAll sets)

end

mutual

/-- How deep a pattern is nested; atoms and switches have no depth. -/
def depth : Pattern → Nat
  | .bracketed _ set => set.depth + 1
  | .repeated p => p.depth + 1
  | .group _ p => p.depth + 1
  | .alternation ps => depthAll ps + 1
  | .sequence ps => depthAll ps + 1
  | _ => 0

/-- The depth of the deepest pattern. -/
def depthAll : List Pattern → Nat
  | [] => 0
  | p :: ps => max p.depth (depthAll ps)

end

/-- How deep a pattern may be nested. -/
def maxDepth : Nat := 250

/-! ## The Unicode mode -/

mutual

/-- Whether a set may be used. With the Unicode mode off, it must stay below 128, so that nothing in
it is negated and no category is in it. -/
def CharSet.isAllowed (unicode : Bool) : CharSet → Bool
  | .empty => true
  | .symbol s => unicode || s.isAscii
  | .range first last => unicode || (first.isAscii && last.isAscii)
  | .shorthand negated => unicode || !negated
  | .category letter => unicode && isCategory letter
  | .nested negated set => (unicode || !negated) && set.isAllowed unicode
  | .union items => CharSet.areAllowed unicode items
  | .operation left right => left.isAllowed unicode && right.isAllowed unicode

/-- Whether all of the sets may be used. -/
def CharSet.areAllowed (unicode : Bool) : List CharSet → Bool
  | [] => true
  | set :: sets => set.isAllowed unicode && CharSet.areAllowed unicode sets

end

/-- Whether an atom may be used. Words are told apart with the Unicode mode off only; whatever could
match a part of a character needs it on. -/
def Atom.isAllowed (unicode : Bool) : Atom → Bool
  | .symbol s => unicode || !s.byte || s.isAscii
  | .any => unicode
  | .shorthand negated => unicode || !negated
  | .category letter => unicode && isCategory letter
  | .anchor => true
  | .wordBoundary => !unicode

mutual

/-- The state of the Unicode mode after a pattern that may be used. A group keeps its switches to
itself; otherwise they hold for all that follows. -/
def unicodeAfter? (unicode : Bool) : Pattern → Option Bool
  | .empty => some unicode
  | .switches s => some (Switch.apply .unicode unicode s)
  | .atom a => if a.isAllowed unicode then some unicode else none
  | .bracketed negated set =>
      if (unicode || !negated) && set.isAllowed unicode then some unicode else none
  | .repeated p => p.unicodeAfter? unicode
  | .group s p => (p.unicodeAfter? (Switch.apply .unicode unicode s)).map fun _ => unicode
  | .alternation ps => unicodeAfterAll? unicode ps
  | .sequence ps => unicodeAfterAll? unicode ps

/-- The state of the Unicode mode after these patterns, one behind the other. -/
def unicodeAfterAll? (unicode : Bool) : List Pattern → Option Bool
  | [] => some unicode
  | p :: ps => (p.unicodeAfter? unicode).bind fun unicode => unicodeAfterAll? unicode ps

end

/-- Whether the pattern can be searched for. The Unicode mode is on at its start. -/
def isUsable (p : Pattern) : Bool := p.depth ≤ maxDepth && (p.unicodeAfter? true).isSome

end Pattern

end XQuery
