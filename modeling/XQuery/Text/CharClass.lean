import XQuery.Text.Utf16

/-!
# Character classes

The scanners choose a branch by the class of the next code point. Above ASCII the classes are the
`NameStartChar` and `NameChar` ranges of XML 1.0, fifth edition, without the colon.
-/

namespace XQuery

/-- What a code point is to a scanner. -/
inductive CharClass where
  | invalid
  | whitespace
  | digit
  | nameStartChar
  /-- Continues a name and does not start one; `-` and `.` have classes of their own. -/
  | nameChar
  | dot
  | hyphenMinus
  | colon
  | quote
  | apostrophe
  | semicolon
  | hash
  | parenthesisOpen
  | parenthesisClose
  | curlyBraceOpen
  | curlyBraceClose
  | squareBracketOpen
  | squareBracketClose
  | plus
  | star
  | comma
  | questionMark
  | atSign
  | dollar
  | forwardSlash
  | verticalBar
  | exclamationMark
  | ampersand
  | percent
  | lessThan
  | greaterThan
  | equal
  | backSlash
  | circumflexAccent
  | tilde
  | backTick
  /-- Nothing is left to read. -/
  | endOfBuffer
deriving DecidableEq, Repr

namespace CharClass

/-- Space, tab, line feed and carriage return. -/
def isBlank (c : CodePoint) : Bool := c == 0x20 || c == 0x09 || c == 0x0A || c == 0x0D

/-- The ASCII digits. -/
def isDigit (c : CodePoint) : Bool := 0x30 ≤ c && c ≤ 0x39

/-- Whether `c` lies in one of the closed ranges. -/
def inRanges (ranges : List (Nat × Nat)) (c : CodePoint) : Bool :=
  ranges.any fun (first, last) => first ≤ c && c ≤ last

/-- XML `NameStartChar` without the colon. -/
def nameStartRanges : List (Nat × Nat) :=
  [(0x41, 0x5A), (0x5F, 0x5F), (0x61, 0x7A), (0xC0, 0xD6), (0xD8, 0xF6), (0xF8, 0x2FF),
   (0x370, 0x37D), (0x37F, 0x1FFF), (0x200C, 0x200D), (0x2070, 0x218F), (0x2C00, 0x2FEF),
   (0x3001, 0xD7FF), (0xF900, 0xFDCF), (0xFDF0, 0xFFFD), (0x10000, 0xEFFFF)]

/-- What XML `NameChar` adds to `NameStartChar`, digits, `-` and `.` apart. -/
def nameOnlyRanges : List (Nat × Nat) := [(0xB7, 0xB7), (0x300, 0x36F), (0x203F, 0x2040)]

/-- The class of an ASCII character that is neither blank nor part of a name. -/
def punctuation : CodePoint → CharClass
  | 0x21 => exclamationMark
  | 0x22 => quote
  | 0x23 => hash
  | 0x24 => dollar
  | 0x25 => percent
  | 0x26 => ampersand
  | 0x27 => apostrophe
  | 0x28 => parenthesisOpen
  | 0x29 => parenthesisClose
  | 0x2A => star
  | 0x2B => plus
  | 0x2C => comma
  | 0x2D => hyphenMinus
  | 0x2E => dot
  | 0x2F => forwardSlash
  | 0x3A => colon
  | 0x3B => semicolon
  | 0x3C => lessThan
  | 0x3D => equal
  | 0x3E => greaterThan
  | 0x3F => questionMark
  | 0x40 => atSign
  | 0x5B => squareBracketOpen
  | 0x5C => backSlash
  | 0x5D => squareBracketClose
  | 0x5E => circumflexAccent
  | 0x60 => backTick
  | 0x7B => curlyBraceOpen
  | 0x7C => verticalBar
  | 0x7D => curlyBraceClose
  | 0x7E => tilde
  | _ => invalid

/-- The class of a code point. -/
def of (c : CodePoint) : CharClass :=
  if isBlank c then whitespace
  else if isDigit c then digit
  else if inRanges nameStartRanges c then nameStartChar
  else if inRanges nameOnlyRanges c then nameChar
  else punctuation c

/-- The class of a number read as a code point, where `-1` marks the end of the region. -/
def ofInt (n : Int) : CharClass :=
  if n = -1 then endOfBuffer else if n < 0 then invalid else of n.toNat

/-- Whether the class may start an `NCName`. -/
def isNameStart (k : CharClass) : Bool := k == nameStartChar

/-- Whether the class may continue an `NCName`. -/
def isName : CharClass → Bool
  | nameStartChar | nameChar | digit | dot | hyphenMinus => true
  | _ => false

/-- Runs of numbers of one class, the last run first, after one more number. -/
def extendRuns (runs : List (Int × Int × CharClass)) (n : Int) : List (Int × Int × CharClass) :=
  match runs with
  | (first, last, k) :: rest =>
      if k = ofInt n then (first, n, k) :: rest else (n, n, ofInt n) :: (first, last, k) :: rest
  | [] => [(n, n, ofInt n)]

/-- The classes of the numbers from `first` to `last` as maximal runs `(first, last, class)`. -/
def runs (first last : Int) : List (Int × Int × CharClass) :=
  let count := (last + 1 - first).toNat
  ((List.range count).foldl (fun acc (i : Nat) => extendRuns acc (first + i)) []).reverse

/-- The name of the class in listings. -/
def name : CharClass → String
  | invalid => "Invalid"
  | whitespace => "Whitespace"
  | digit => "Digit"
  | nameStartChar => "NameStartChar"
  | nameChar => "NameChar"
  | dot => "Dot"
  | hyphenMinus => "HyphenMinus"
  | colon => "Colon"
  | quote => "Quote"
  | apostrophe => "Apostrophe"
  | semicolon => "Semicolon"
  | hash => "Hash"
  | parenthesisOpen => "ParenthesisOpen"
  | parenthesisClose => "ParenthesisClose"
  | curlyBraceOpen => "CurlyBraceOpen"
  | curlyBraceClose => "CurlyBraceClose"
  | squareBracketOpen => "SquareBracketOpen"
  | squareBracketClose => "SquareBracketClose"
  | plus => "Plus"
  | star => "Star"
  | comma => "Comma"
  | questionMark => "QuestionMark"
  | atSign => "AtSign"
  | dollar => "Dollar"
  | forwardSlash => "ForwardSlash"
  | verticalBar => "VerticalBar"
  | exclamationMark => "ExclamationMark"
  | ampersand => "Ampersand"
  | percent => "Percent"
  | lessThan => "LessThan"
  | greaterThan => "GreaterThan"
  | equal => "Equal"
  | backSlash => "BackSlash"
  | circumflexAccent => "CircumflexAccent"
  | tilde => "Tilde"
  | backTick => "BackTick"
  | endOfBuffer => "EndOfBuffer"

end CharClass

end XQuery
