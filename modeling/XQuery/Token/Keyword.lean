/-!
# Reserved words

A scanner does not know the grammar, so every name that is spelled like one of these words is a
keyword; whether it is used as one is for a parser to decide.
-/

namespace XQuery

/-- The reserved words. They are searched, so that they stand in order. -/
def reservedWords : List String :=
  ["and", "array", "as", "ascending", "by", "case", "cast", "castable", "catch", "declare",
   "default", "descending", "div", "else", "eq", "every", "except", "external", "for", "function",
   "ge", "gt", "idiv", "if", "import", "in", "instance", "intersect", "is", "le", "let", "lt",
   "map", "mod", "module", "namespace", "ne", "of", "or", "order", "return", "satisfies", "some",
   "switch", "then", "to", "treat", "try", "typeswitch", "union", "variable", "where"]

/-- A reserved word. -/
structure Keyword where
  /-- The spelling, which is case-sensitive. -/
  word : String
  /-- The spelling is on the list. -/
  reserved : word ∈ reservedWords
deriving DecidableEq

namespace Keyword

/-- Binary search among the `size` words from position `base` on: the last word that does not come
after `s`, or the first word if all do. -/
def search (words : List String) (s : String) (base size : Nat) : Nat :=
  if size ≤ 1 then base
  else
    let half := size / 2
    if s < words.getD (base + half) s then search words s base (size - half)
    else search words s (base + half) (size - half)
termination_by size

/-- The keyword with this spelling. -/
def ofWord? (s : String) : Option Keyword :=
  let i := search reservedWords s 0 reservedWords.length
  if h : reservedWords[i]? = some s then some ⟨s, List.mem_of_getElem? h⟩ else none

/-- The word in upper case. -/
def upper (k : Keyword) : String := k.word.toUpper

/-- The word with a capital first letter. -/
def title (k : Keyword) : String := k.word.capitalize

/-- The keyword whose upper-case spelling is `s`. -/
def ofUpper? (s : String) : Option Keyword :=
  (reservedWords.filterMap ofWord?).find? (·.upper == s)

end Keyword

end XQuery
