import XQuery.Lexer.Basic
import XQuery.Text.CharClass

/-!
# The expression lexer

Tokens of XPath 3.1 with the reserved words of XQuery. Malformed input never fails: an unknown
character is a token of its own, and a construct that is not closed ends with the region or is
reported as partial.
-/

namespace XQuery

namespace Expression

/-- Where in an expression a token is read. -/
inductive Mode where
  | plain
  | quoted
  | apostrophed
  | comment
  | pragmaStart
  | pragmaName
  | pragmaContents
  | bracedUri
  | docMarker
deriving DecidableEq, Repr

/-- The number that stands for the mode in a state. -/
def Mode.code : Mode → Nat
  | plain => 0
  | quoted => 1
  | apostrophed => 2
  | comment => 3
  | pragmaStart => 4
  | pragmaName => 5
  | pragmaContents => 6
  | bracedUri => 7
  | docMarker => 8

/-- The mode of a state; every other number stands for plain text. -/
def Mode.ofCode : Nat → Mode
  | 1 => quoted
  | 2 => apostrophed
  | 3 => comment
  | 4 => pragmaStart
  | 5 => pragmaName
  | 6 => pragmaContents
  | 7 => bracedUri
  | 8 => docMarker
  | _ => plain

/-- Whether the next code point is the character `ch`. -/
def next (ch : Char) : List CodePoint → Bool
  | c :: _ => c == ch.toNat
  | [] => false

/-- The number of leading code points whose class satisfies `p`. -/
def count (p : CharClass → Bool) (cs : List CodePoint) : Nat :=
  (cs.takeWhile fun c => p (CharClass.of c)).length

/-- The number of leading digits. -/
def digits (cs : List CodePoint) : Nat := count (· == .digit) cs

/-- The number of leading blanks. -/
def blanks (cs : List CodePoint) : Nat := count (· == .whitespace) cs

/-- The number of leading code points that continue a name. -/
def nameChars (cs : List CodePoint) : Nat := count CharClass.isName cs

/-- An operator of one character, or of two when one of the given characters follows it. -/
def operator (alone : Kind) (pairs : List (Char × Kind)) (cs : List CodePoint) : Step :=
  match pairs.find? fun (ch, _) => next ch cs with
  | some (_, kind) => .token kind 2
  | none => .token alone 1

/-- The number of signs in front of an exponent's digits: none or one. -/
def sign (cs : List CodePoint) : Nat := if next '+' cs || next '-' cs then 1 else 0

/-- What may follow the `length` code points of a number of the given kind. An exponent makes it
a double; in front of a name, as in `1else`, the `e` belongs to the name. -/
def exponent (kind : Kind) (length : Nat) : List CodePoint → Step
  | [] => .token kind length
  | c :: cs =>
      if c == 'e'.toNat || c == 'E'.toNat then
        let signs := sign cs
        match cs.drop signs with
        | [] => .token .partialDoubleLiteralExponent (length + 1 + signs)
        | d :: ds =>
            match CharClass.of d with
            | .digit => .token .doubleLiteral (length + 1 + signs + (1 + digits ds))
            | .nameStartChar => .token kind length
            | _ => .token .partialDoubleLiteralExponent (length + 1 + signs)
      else .token kind length

/-- A number, after its first digit. -/
def number (cs : List CodePoint) : Step :=
  let whole := digits cs
  match cs.drop whole with
  | c :: rest =>
      if c == '.'.toNat then
        let fraction := digits rest
        exponent .decimalLiteral (1 + whole + 1 + fraction) (rest.drop fraction)
      else exponent .integerLiteral (1 + whole) (c :: rest)
  | [] => exponent .integerLiteral (1 + whole) []

/-- A token that starts with a dot, after the dot. -/
def dot (cs : List CodePoint) : Step :=
  if next '.' cs then .token .parentSelector 2
  else match digits cs with
    | 0 => .token .contextItem 1
    | fraction => exponent .decimalLiteral (1 + fraction) (cs.drop fraction)

/-- A name is a keyword when it is spelled like one. -/
def nameKind (cs : List CodePoint) : Kind :=
  match Keyword.ofWord? (String.ofList (cs.map Utf16.toChar)) with
  | some k => .keyword k
  | none => .ncName

/-- A name that starts with `c`, or the start `Q{` of a braced URI. -/
def name (c : CodePoint) (cs : List CodePoint) : Step :=
  if c == 'Q'.toNat && next '\x7b' cs then
    (Step.token .bracedUriLiteralStart 2).moving (.push Mode.bracedUri.code)
  else
    let length := nameChars cs
    .token (nameKind (c :: cs.take length)) (1 + length)

/-- A token that starts with `(`, after it. -/
def parenthesis (cs : List CodePoint) : Step :=
  if next ':' cs then
    let mode := if next '~' cs.tail then Mode.docMarker else Mode.comment
    (Step.token .commentStartTag 2).moving (.push mode.code)
  else if next '#' cs then
    (Step.token .pragmaBegin 2).moving (.push Mode.pragmaStart.code)
  else .token .parenthesisOpen 1

/-- A token outside strings, comments and pragmas. -/
def plain : List CodePoint → Step
  | [] => .exhausted
  | c :: cs =>
      match CharClass.of c with
      | .endOfBuffer => .exhausted
      | .whitespace => .token .whiteSpace (1 + blanks cs)
      | .dot => dot cs
      | .digit => number cs
      | .quote => (Step.token .stringLiteralStart 1).moving (.push Mode.quoted.code)
      | .apostrophe => (Step.token .stringLiteralStart 1).moving (.push Mode.apostrophed.code)
      | .nameStartChar => name c cs
      | .parenthesisOpen => parenthesis cs
      | .parenthesisClose => .token .parenthesisClose 1
      | .colon =>
          operator .qnameSeparator
            [(':', .axisSeparator), ('=', .assign), (')', .commentEndTag)] cs
      | .hash => operator .functionRefOperator [(')', .pragmaEnd)] cs
      | .exclamationMark => operator .mapOperator [('=', .notEqual)] cs
      | .equal => operator .equal [('>', .arrowOperator)] cs
      | .lessThan => operator .lessThan [('=', .lessThanOrEqual), ('<', .nodeBefore)] cs
      | .greaterThan => operator .greaterThan [('=', .greaterThanOrEqual), ('>', .nodeAfter)] cs
      | .verticalBar => operator .union [('|', .concatenation)] cs
      | .forwardSlash => operator .directDescendants [('/', .allDescendants)] cs
      | .atSign => .token .attributeSelector 1
      | .comma => .token .comma 1
      | .squareBracketOpen => .token .squareOpen 1
      | .squareBracketClose => .token .squareClose 1
      | .curlyBraceOpen => .token .blockOpen 1
      | .curlyBraceClose => .token .blockClose 1
      | .plus => .token .plus 1
      | .hyphenMinus => .token .minus 1
      | .star => .token .star 1
      | .questionMark => .token .optional 1
      | .dollar => .token .variableIndicator 1
      | .semicolon => .token .separator 1
      | .invalid | .nameChar | .ampersand | .percent | .backSlash | .circumflexAccent | .tilde
      | .backTick => .token .badCharacter 1

/-- The hexadecimal digits of either case. -/
def isHexDigit (c : CodePoint) : Bool :=
  (0x30 ≤ c && c ≤ 0x39) || (0x41 ≤ c && c ≤ 0x46) || (0x61 ≤ c && c ≤ 0x66)

/-- A reference whose first `length` code points are read; a semicolon closes it. -/
def closeReference (closed : Kind) (length : Nat) (cs : List CodePoint) : Step :=
  if next ';' cs then .token closed (length + 1) else .token .partialEntityReference length

/-- An entity or character reference, after its `&`. -/
def reference : List CodePoint → Step
  | [] => .token .emptyEntityReference 1
  | c :: cs =>
      match CharClass.of c with
      | .nameStartChar =>
          let length := nameChars cs
          closeReference .predefinedEntityReference (2 + length) (cs.drop length)
      | .hash =>
          if next 'x' cs then
            let length := (cs.tail.takeWhile isHexDigit).length
            closeReference .characterReference (3 + length) (cs.tail.drop length)
          else
            let length := digits cs
            closeReference .characterReference (2 + length) (cs.drop length)
      | .semicolon => .token .emptyEntityReference 2
      | _ => .token .emptyEntityReference 1

/-- The number of code points before a reference or the closing character `ch`. -/
def contents (ch : Char) (cs : List CodePoint) : Nat :=
  (cs.takeWhile fun c => c != ch.toNat && c != '&'.toNat).length

/-- A token inside a string literal that `quote` closes; a doubled `quote` stands for itself. -/
def string (quote : Char) : List CodePoint → Step
  | [] => .exhausted
  | c :: cs =>
      if c == quote.toNat then
        if next quote cs then .token .escapedCharacter 2
        else (Step.token .stringLiteralEnd 1).moving .pop
      else if c == '&'.toNat then reference cs
      else .token .stringLiteralContents (1 + contents quote cs)

/-- A token inside a braced URI. -/
def bracedUri : List CodePoint → Step
  | [] => .exhausted
  | c :: cs =>
      if c == '\x7d'.toNat then (Step.token .bracedUriLiteralEnd 1).moving .pop
      else if c == '&'.toNat then reference cs
      else .token .stringLiteralContents (1 + contents '\x7d' cs)

/-- The length of a comment's text at nesting depth `depth`, up to the `:)` that closes it, and
whether there is one. -/
def commentText : Nat → List CodePoint → Nat × Bool
  | _, [] => (0, false)
  | _, [_] => (1, false)
  | depth, c :: d :: cs =>
      if c == '('.toNat && d == ':'.toNat then
        let (length, closed) := commentText (depth + 1) cs
        (length + 2, closed)
      else if c == ':'.toNat && d == ')'.toNat then
        match depth with
        | 0 => (0, true)
        | depth + 1 =>
            let (length, closed) := commentText depth cs
            (length + 2, closed)
      else
        let (length, closed) := commentText depth (d :: cs)
        (length + 1, closed)

/-- A token inside a comment: its end tag, or all of the text in front of the end tag. -/
def comment (cs : List CodePoint) : Step :=
  if cs.isEmpty then .exhausted
  else if next ':' cs && next ')' cs.tail then (Step.token .commentEndTag 2).moving .pop
  else match commentText 0 cs with
    | (length, true) => .token .comment length
    | (length, false) => .token .partialComment length

/-- The marker that makes a comment a documentation comment, or else a token of a comment. -/
def docMarker (cs : List CodePoint) : Step :=
  if next '~' cs then (Step.token .docCommentMarker 1).moving (.replace Mode.comment.code)
  else
    let step := comment cs
    match step.move with
    | .pop => step
    | _ => step.moving (.replace Mode.comment.code)

/-- Whether the end tag of a pragma is ahead. -/
def atPragmaEnd (cs : List CodePoint) : Bool := next '#' cs && next ')' cs.tail

/-- The end tag of a pragma. -/
def pragmaEnd : Step := (Step.token .pragmaEnd 2).moving .pop

/-- The part of a pragma's name that starts with `c`. -/
def pragmaNamePart (c : CodePoint) (cs : List CodePoint) : Step :=
  match CharClass.of c with
  | .nameStartChar => .token .ncName (1 + nameChars cs)
  | .colon => .token .qnameSeparator 1
  | _ => .token .badCharacter 1

/-- A token in front of a pragma's name. -/
def pragmaStart (cs : List CodePoint) : Step :=
  if atPragmaEnd cs then pragmaEnd
  else match cs with
    | [] => .exhausted
    | c :: cs =>
        if CharClass.of c = .whitespace then .token .whiteSpace (1 + blanks cs)
        else (pragmaNamePart c cs).moving (.replace Mode.pragmaName.code)

/-- A token of a pragma's name; white space ends the name. -/
def pragmaName (cs : List CodePoint) : Step :=
  if atPragmaEnd cs then pragmaEnd
  else match cs with
    | [] => .exhausted
    | c :: cs =>
        if CharClass.of c = .whitespace then
          (Step.token .whiteSpace (1 + blanks cs)).moving (.replace Mode.pragmaContents.code)
        else pragmaNamePart c cs

/-- The number of code points in front of the end tag of a pragma. -/
def pragmaText : List CodePoint → Nat
  | [] => 0
  | c :: cs => if atPragmaEnd (c :: cs) then 0 else pragmaText cs + 1

/-- A token of a pragma after its name: the end tag, or all of the text in front of it. -/
def pragmaContents (cs : List CodePoint) : Step :=
  if atPragmaEnd cs then pragmaEnd
  else if cs.isEmpty then .exhausted
  else .token .pragmaContents (pragmaText cs)

/-- How a token is read in each mode. -/
def scan : Mode → List CodePoint → Step
  | .plain => plain
  | .quoted => string '"'
  | .apostrophed => string '\''
  | .comment => comment
  | .pragmaStart => pragmaStart
  | .pragmaName => pragmaName
  | .pragmaContents => pragmaContents
  | .bracedUri => bracedUri
  | .docMarker => docMarker

/-- The rule of the expression lexer. -/
def rule : Rule := fun state cs => scan (Mode.ofCode state) cs

end Expression

/-- The lexer for expressions. A documentation comment is a comment with a marker. -/
def Lexer.expression : Lexer := .ofRule Expression.rule

end XQuery
