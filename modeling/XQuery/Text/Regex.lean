/-!
# Regular expressions

Regular expressions that are searched for in a text. Where one can match in several ways, the
longest repetition and the first alternative are tried before the others, until what stands behind
matches as well. A group keeps the text that it has matched.
-/

namespace XQuery

/-- A regular expression. -/
inductive Regex where
  | empty
  /-- The start of the text: `^`. -/
  | start
  /-- The end of the text: `$`. -/
  | stop
  /-- A character that satisfies the condition. -/
  | one (p : Char → Bool)
  /-- Any number of characters that satisfy the condition. -/
  | many (p : Char → Bool)
  | sequence (r s : Regex)
  | either (r s : Regex)
  /-- A group with its number. -/
  | group (i : Nat) (r : Regex)

namespace Regex

/-- A given character. -/
def char (c : Char) : Regex := one (· == c)

/-- An expression that may be left out. -/
def optional (r : Regex) : Regex := either r empty

/-- Expressions one behind the other. -/
def all (rs : List Regex) : Regex := rs.foldr sequence empty

/-- The texts that groups have matched, with the numbers of the groups. -/
abbrev Groups := List (Nat × List Char)

section

variable {α : Type}

/-- Match as many characters as possible. Where `next` has no result for what is matched and what is
left, match fewer. -/
def matchMany (p : Char → Bool) :
    List Char → (next : List Char → List Char → Option α) → Option α
  | [], next => next [] []
  | c :: cs, next =>
      if p c then
        matchMany p cs (fun word rest => next (c :: word) rest) <|> next [] (c :: cs)
      else next [] (c :: cs)

/-- Match at the front of a text, which is the whole text if `atStart` holds. The result is the
first one that `next` has for what is matched, what is left and the groups. -/
def matchFront : Regex → (atStart : Bool) → List Char →
    (next : List Char → List Char → Groups → Option α) → Option α
  | empty, _, cs, next => next [] cs []
  | start, atStart, cs, next => if atStart then next [] cs [] else none
  | stop, _, cs, next => if cs.isEmpty then next [] cs [] else none
  | one _, _, [], _ => none
  | one p, _, c :: cs, next => if p c then next [c] cs [] else none
  | many p, _, cs, next => matchMany p cs fun word rest => next word rest []
  | sequence r s, atStart, cs, next =>
      r.matchFront atStart cs fun word rest groups =>
        s.matchFront (atStart && word.isEmpty) rest fun word' rest' groups' =>
          next (word ++ word') rest' (groups ++ groups')
  | either r s, atStart, cs, next =>
      r.matchFront atStart cs next <|> s.matchFront atStart cs next
  | group i r, atStart, cs, next =>
      r.matchFront atStart cs fun word rest groups => next word rest ((i, word) :: groups)

end

/-- The groups of the first match in a text, which is the whole text if `atStart` holds. -/
def searchFrom (r : Regex) (atStart : Bool) : List Char → Option Groups
  | [] => r.matchFront atStart [] fun _ _ groups => some groups
  | c :: cs =>
      (r.matchFront atStart (c :: cs) fun _ _ groups => some groups) <|> r.searchFrom false cs

/-- The groups of the first match in a text. -/
def captures? (r : Regex) (cs : List Char) : Option Groups := r.searchFrom true cs

/-- Whether there is a match in a text. -/
def isMatch (r : Regex) (cs : List Char) : Bool := (r.captures? cs).isSome

end Regex

end XQuery
