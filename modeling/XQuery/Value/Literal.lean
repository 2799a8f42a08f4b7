import XQuery.Error.Fault
import XQuery.Lexer.Expression
import XQuery.Number.Decimal
import XQuery.Number.Double

/-!
# Literals

The values of numeric and string literals. A string literal is taken apart by the expression lexer;
its delimiter is written twice inside it, and XQuery has references besides.
-/

namespace XQuery

namespace Literal

/-- The digits before and behind the point, of which at least one must be there; none on a side
stand for a zero. -/
def decimalDigits? (cs : List Char) : Option (List Char × List Char) :=
  let (whole, fraction) := (Text.splitAtFirst? (· == '.') cs).getD (cs, [])
  let valid (part : List Char) := part.isEmpty || Digits.isDigits part
  let orZero (part : List Char) := if part.isEmpty then ['0'] else part
  if valid whole && valid fraction && !(whole.isEmpty && fraction.isEmpty) then
    some (orZero whole, orZero fraction)
  else none

/-- The value of an integer literal, which must be below `2 ^ 127`. -/
def integer (s : String) : Except Fault Int :=
  if Digits.isDigits s.toList then
    let n := Digits.value s.toList
    if n < Nat.pow 2 127 then .ok n else .error (.literalOutOfRange .integer s)
  else .error (.invalidLiteral .integer s)

/-- The value of a decimal literal. -/
def decimal (s : String) : Except Fault Decimal :=
  match decimalDigits? s.toList with
  | none => .error (.invalidLiteral .decimal s)
  | some (whole, fraction) =>
      match Decimal.ofDigits? whole fraction with
      | some d => .ok d
      | none => .error (.literalOutOfRange .decimal s)

/-- An exponent: digits with an optional sign. -/
def exponent? (cs : List Char) : Option Int :=
  let (negative, digits) :=
    match cs with
    | '+' :: rest => (false, rest)
    | '-' :: rest => (true, rest)
    | _ => (false, cs)
  if Digits.isDigits digits then
    some (if negative then -(Digits.value digits : Int) else Digits.value digits)
  else none

/-- The digits before and behind the point and the exponent of a double literal. -/
def doubleParts? (cs : List Char) : Option (List Char × List Char × Int) := do
  let (mantissa, rest) ← Text.splitAtFirst? (fun c => c == 'e' || c == 'E') cs
  let exponent ← exponent? rest
  let (whole, fraction) ← decimalDigits? mantissa
  return (whole, fraction, exponent)

/-- The value of a double literal, which must be finite. -/
def double (s : String) : Except Fault Double :=
  match doubleParts? s.toList with
  | none => .error (.invalidLiteral .double s)
  | some (whole, fraction, exponent) =>
      let d := Double.ofScientific (Digits.value (whole ++ fraction)) (exponent - fraction.length)
      if d.isInfinite then .error (.literalOutOfRange .double s) else .ok d

/-- Which references a string literal may hold. -/
inductive StringRules where
  /-- None: only a doubled delimiter is an escape. -/
  | xpath
  /-- Entity and character references. -/
  | xquery
deriving DecidableEq, Repr

/-- The characters of XML. -/
def isXmlChar (n : Nat) : Bool :=
  n == 0x9 || n == 0xA || n == 0xD || (0x20 ≤ n && n ≤ 0xD7FF) || (0xE000 ≤ n && n ≤ 0xFFFD)
    || (0x10000 ≤ n && n ≤ 0x10FFFF)

/-- The character that an entity reference stands for. -/
def entity (reference : String) : Except Fault Char :=
  match reference with
  | "&lt;" => .ok '<'
  | "&gt;" => .ok '>'
  | "&amp;" => .ok '&'
  | "&quot;" => .ok '"'
  | "&apos;" => .ok '\''
  | _ => .error (.unknownEntity reference)

/-- The number in a character reference, if it has a digit. -/
def referenceNumber? (reference : List Char) : Option Nat :=
  match (Text.strip? ['&', '#'] reference).bind (Text.stripEnd? [';']) with
  | none | some [] | some ['x'] => none
  | some ('x' :: hex) => some (Digits.hexValue hex)
  | some digits => some (Digits.value digits)

/-- The character that a character reference stands for. -/
def character (reference : String) : Except Fault Char :=
  match referenceNumber? reference.toList with
  | none => .error (.malformedReference reference)
  | some n =>
      if isXmlChar n then .ok (Char.ofNat n) else .error (.nonXmlCharacter reference)

/-- The text that a token inside the literal `raw` stands for. -/
def piece (raw : String) (rules : StringRules) (kind : Kind) (text : String) :
    Except Fault String :=
  match kind, rules with
  | .stringLiteralContents, _ => .ok text
  | .escapedCharacter, _ => .ok (String.ofList (text.toList.take 1))
  | .predefinedEntityReference, .xpath | .characterReference, .xpath
  | .partialEntityReference, .xpath | .emptyEntityReference, .xpath => .ok text
  | .predefinedEntityReference, .xquery => (entity text).map Char.toString
  | .characterReference, .xquery => (character text).map Char.toString
  | .partialEntityReference, .xquery | .emptyEntityReference, .xquery =>
      .error (.incompleteReference text)
  | _, _ => .error (.incompleteString raw)

/-- The tokens between the two delimiters, if the tokens are those of a string literal. -/
def innerTokens? : List Token → Option (List Token)
  | [] => none
  | first :: rest =>
      match rest.getLast? with
      | some last =>
          if first.kind = .stringLiteralStart ∧ last.kind = .stringLiteralEnd then
            some rest.dropLast
          else none
      | none => none

/-- The value of a complete string literal, its delimiters included. -/
def string (raw : String) (rules : StringRules) : Except Fault String :=
  let units := (Utf16.encode raw).toArray
  match innerTokens? (Lexer.expression.tokens units 0 units.size 0) with
  | none => .error (.incompleteString raw)
  | some tokens =>
      (tokens.mapM fun t =>
        piece raw rules t.kind (Utf16.text (units.extract t.start t.stop).toList)).map String.join

end Literal

end XQuery
