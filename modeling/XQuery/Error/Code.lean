import XQuery.Name.Expanded
import XQuery.Name.Namespace
import XQuery.Text.Split

/-!
# Error codes

An error has a code, which is an expanded name, and a message. Codes in the namespace of error
codes are written with the prefix `err`, all others as expanded names.
-/

namespace XQuery

/-- The codes of the errors that reading values and resolving names can raise. -/
inductive ErrorCode where
  /-- A number is too large. -/
  | numericOverflow
  /-- A text is no QName. -/
  | invalidQName
  /-- A duration is too long. -/
  | durationOverflow
  /-- A text has not the form that its type asks for. -/
  | invalidForm
  /-- A text is not well-formed. -/
  | malformed
  /-- A variable is not declared. -/
  | undeclaredVariable
  /-- No function has this name and number of arguments. -/
  | unknownFunction
  /-- A namespace prefix is not declared. -/
  | undeclaredPrefix
  /-- A character reference denotes no character of XML. -/
  | nonXmlCharacter
  /-- Every other code. -/
  | unknown
deriving DecidableEq, Repr

namespace ErrorCode

/-- The local name of the code. -/
def localName : ErrorCode → String
  | numericOverflow => "FOAR0002"
  | invalidQName => "FOCA0002"
  | durationOverflow => "FODT0002"
  | invalidForm => "FORG0001"
  | malformed => "XPST0003"
  | undeclaredVariable => "XPST0008"
  | unknownFunction => "XPST0017"
  | undeclaredPrefix => "XPST0081"
  | nonXmlCharacter => "XQST0090"
  | unknown => "UNKNOWN"

/-- The codes that have a meaning of their own. -/
def known : List ErrorCode :=
  [numericOverflow, invalidQName, durationOverflow, invalidForm, malformed, undeclaredVariable,
   unknownFunction, undeclaredPrefix, nonXmlCharacter]

/-- The code with this local name. -/
def ofLocalName (s : String) : ErrorCode := (known.find? (·.localName == s)).getD unknown

/-- The code that a text with the prefix `err` names. -/
def ofText (s : String) : ErrorCode :=
  match Text.strip? "err:".toList s.toList with
  | some rest => ofLocalName (String.ofList rest)
  | none => unknown

/-- The code as an expanded name. -/
def name (c : ErrorCode) : ExpandedName := ⟨some Namespace.errors, c.localName⟩

end ErrorCode

/-- An error: its code, what it says, and the text of what caused it. -/
structure Error where
  code : ExpandedName
  message : String
  cause : Option String := none
deriving DecidableEq

namespace Error

/-- An error with one of the known codes. -/
def ofCode (code : ErrorCode) (message : String) : Error := { code := code.name, message }

/-- The code as one of the known ones; codes of other namespaces are unknown. -/
def knownCode (e : Error) : ErrorCode :=
  if e.code.uri = some Namespace.errors then ErrorCode.ofLocalName e.code.localName
  else .unknown

/-- The text of a code: `err:LOCAL`, `Q{uri}local` or a bare local name. -/
def codeText (code : ExpandedName) : String :=
  if code.uri = some Namespace.errors then "err:" ++ code.localName else code.text

/-- Read the text of a code. Every text is one: what has neither of the two other forms is a bare
local name. -/
def parseCode (s : String) : ExpandedName :=
  match Text.strip? "err:".toList s.toList with
  | some rest => ⟨some Namespace.errors, String.ofList rest⟩
  | none =>
      match (Text.strip? "Q\x7b".toList s.toList).bind (Text.splitAtFirst? (· == '\x7d')) with
      | some (uri, rest) => ⟨some (String.ofList uri), String.ofList rest⟩
      | none => ⟨none, s⟩

/-- The error as it is reported. -/
def text (e : Error) : String := "error: " ++ e.message ++ " (" ++ codeText e.code ++ ")"

end Error

end XQuery
