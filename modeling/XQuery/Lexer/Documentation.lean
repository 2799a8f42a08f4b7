import XQuery.Lexer.Expression

/-!
# The documentation lexer

Tokens of the body of an xqDoc comment, from behind `(:~` up to the `:)` that closes it, which is
left to the expression lexer. A comment nested in the body is part of its contents; how deep the
reader is in nested comments is kept in the state above the mode.
-/

namespace XQuery

namespace Documentation

open Expression (next nameChars)

/-- Where in a documentation comment a token is read. -/
inductive Mode where
  | contents
  | lineStart
  | tag
  | paramStart
  | paramName
deriving DecidableEq, Repr

/-- The number that stands for the mode in a state. -/
def Mode.code : Mode → Nat
  | contents => 0
  | lineStart => 1
  | tag => 2
  | paramStart => 3
  | paramName => 4

/-- The mode of a state without its depth; every other number stands for contents. -/
def Mode.ofCode : Nat → Mode
  | 1 => lineStart
  | 2 => tag
  | 3 => paramStart
  | 4 => paramName
  | _ => contents

/-- The states below this number have depth zero; above it the state counts the nesting. -/
def depthUnit : Nat := 0x100

/-- The greatest depth that nesting reaches; deeper comments are counted as this deep. -/
def maxDepth : Nat := 0xFFFFE

/-- The state of a mode at a nesting depth. -/
def pack (mode : Mode) (depth : Nat) : Nat := mode.code + depth * depthUnit

/-- The words after `@` that have a meaning of their own. -/
def taggedKeywords : List String :=
  ["author", "deprecated", "error", "param", "return", "see", "since", "version"]

/-- Space and tab. -/
def isInlineSpace (c : CodePoint) : Bool := c == 0x20 || c == 0x09

/-- Line feed and carriage return. -/
def isLineBreak (c : CodePoint) : Bool := c == 0x0A || c == 0x0D

/-- Whether `first` and then `second` are ahead. -/
def atPair (first second : Char) (cs : List CodePoint) : Bool :=
  next first cs && next second cs.tail

/-- Whether the body ends here: at the end of the region, or in front of the `:)` that closes the
documentation comment itself. -/
def atTerminator (depth : Nat) (cs : List CodePoint) : Bool :=
  cs.isEmpty || (depth == 0 && atPair ':' ')' cs)

/-- The line breaks ahead, the indentation after them and a colon that begins the line. -/
def trim (depth : Nat) (cs : List CodePoint) : Step :=
  let breaks := (cs.takeWhile isLineBreak).length
  let cs := cs.drop breaks
  let spaces := (cs.takeWhile isInlineSpace).length
  let cs := cs.drop spaces
  let colon := if next ':' cs && !atPair ':' ')' cs then 1 else 0
  (Step.token .docTrim (breaks + spaces + colon)).moving (.replace (pack .lineStart depth))

/-- The number of code points up to the end of the line or of the body, and the depth there. -/
def lineText : Nat → List CodePoint → Nat × Nat
  | depth, [] => (0, depth)
  | depth, [c] => if isLineBreak c then (0, depth) else (1, depth)
  | depth, c :: d :: cs =>
      if isLineBreak c then (0, depth)
      else if c == '('.toNat && d == ':'.toNat then
        let (length, depth') := lineText (min (depth + 1) maxDepth) cs
        (length + 2, depth')
      else if c == ':'.toNat && d == ')'.toNat then
        match depth with
        | 0 => (0, 0)
        | depth + 1 =>
            let (length, depth') := lineText depth cs
            (length + 2, depth')
      else
        let (length, depth') := lineText depth (d :: cs)
        (length + 1, depth')

/-- The rest of the line. -/
def line (depth : Nat) (cs : List CodePoint) : Step :=
  let (length, depth') := lineText depth cs
  (Step.token .docContents length).moving (.replace (pack .contents depth'))

/-- A token inside a line: its rest, or the line break that ends it. -/
def contents (depth : Nat) (cs : List CodePoint) : Step :=
  match cs with
  | c :: _ => if isLineBreak c then trim depth cs else line depth cs
  | [] => line depth cs

/-- The spaces and tabs ahead. -/
def inlineSpace (cs : List CodePoint) : Step :=
  .token .docWhiteSpace (cs.takeWhile isInlineSpace).length

/-- A token at the start of a line, where `@` announces a tag. -/
def lineStart (depth : Nat) (cs : List CodePoint) : Step :=
  match cs with
  | c :: _ =>
      if isLineBreak c then trim depth cs
      else if isInlineSpace c then inlineSpace cs
      else if c == '@'.toNat then
        (Step.token .docTagMarker 1).moving (.replace (pack .tag depth))
      else line depth cs
  | [] => line depth cs

/-- The name of a tag; a variable may follow `param`. -/
def tag (depth : Nat) (cs : List CodePoint) : Step :=
  match cs with
  | c :: rest =>
      if (CharClass.of c).isNameStart then
        let length := nameChars rest
        let name := String.ofList ((c :: rest.take length).map Utf16.toChar)
        let mode := if name = "param" then Mode.paramStart else .contents
        let kind := if name ∈ taggedKeywords then Kind.docTaggedKeyword else .docTag
        (Step.token kind (1 + length)).moving (.replace (pack mode depth))
      else contents depth cs
  | [] => contents depth cs

/-- A token in front of the variable that `param` documents. -/
def paramStart (depth : Nat) (cs : List CodePoint) : Step :=
  match cs with
  | c :: _ =>
      if isInlineSpace c then inlineSpace cs
      else if c == '$'.toNat then
        (Step.token .docVariableIndicator 1).moving (.replace (pack .paramName depth))
      else contents depth cs
  | [] => contents depth cs

/-- The name of the variable. -/
def paramName (depth : Nat) (cs : List CodePoint) : Step :=
  match cs with
  | c :: rest =>
      if (CharClass.of c).isNameStart then
        (Step.token .docNCName (1 + nameChars rest)).moving (.replace (pack .contents depth))
      else contents depth cs
  | [] => contents depth cs

/-- How a token is read in each mode. -/
def scan : Mode → Nat → List CodePoint → Step
  | .contents => contents
  | .lineStart => lineStart
  | .tag => tag
  | .paramStart => paramStart
  | .paramName => paramName

/-- The rule of the documentation lexer. -/
def rule : Rule := fun state cs =>
  let depth := state / depthUnit
  if atTerminator depth cs then .exhausted
  else scan (Mode.ofCode (state % depthUnit)) depth cs

end Documentation

/-- The lexer for the bodies of documentation comments. -/
def Lexer.documentation : Lexer := .ofRule Documentation.rule

end XQuery
