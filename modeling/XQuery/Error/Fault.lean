import XQuery.Context.Functions
import XQuery.Error.Code
import XQuery.Value.AtomicType

/-!
# Faults

What can be wrong with the text of a value or with a name in a query. Each fault has one code and
one message.
-/

namespace XQuery

/-- The types of number that have literals. -/
inductive NumberType where
  | integer
  | decimal
  | double
deriving DecidableEq, Repr

/-- The name of the type in messages. -/
def NumberType.text : NumberType → String
  | integer => "integer"
  | decimal => "decimal"
  | double => "double"

/-- Why a text or a name is refused. -/
inductive Fault where
  /-- The text is no literal of the type. -/
  | invalidLiteral (type : NumberType) (text : String)
  /-- The number is too large for its type. -/
  | literalOutOfRange (type : NumberType) (text : String)
  /-- The text is not exactly one string literal. -/
  | incompleteString (raw : String)
  | unknownEntity (reference : String)
  | malformedReference (reference : String)
  | nonXmlCharacter (reference : String)
  | incompleteReference (reference : String)
  | invalidNCName (text : String)
  | invalidQName (text : String)
  | undeclaredPrefix (pre : String)
  | invalidDuration (type : AtomicType) (text : String)
  | durationOutOfRange (type : AtomicType) (text : String)
  | undeclaredVariable (name : ExpandedName)
  | unresolvedFunction (error : ResolveError)
deriving DecidableEq

namespace Fault

/-- The code of the error that reports the fault. -/
def code : Fault → ErrorCode
  | invalidLiteral .. | invalidNCName _ | invalidDuration .. => .invalidForm
  | literalOutOfRange .. => .numericOverflow
  | incompleteString _ | unknownEntity _ | malformedReference _ | incompleteReference _ =>
      .malformed
  | nonXmlCharacter _ => .nonXmlCharacter
  | invalidQName _ => .invalidQName
  | undeclaredPrefix _ => .undeclaredPrefix
  | durationOutOfRange .. => .durationOverflow
  | undeclaredVariable _ => .undeclaredVariable
  | unresolvedFunction _ => .unknownFunction

/-- A text in single quotes. -/
def quoted (s : String) : String := "'" ++ s ++ "'"

/-- What the error says. -/
def message : Fault → String
  | invalidLiteral type text => "invalid " ++ type.text ++ " literal " ++ quoted text
  | literalOutOfRange type text => type.text ++ " literal " ++ quoted text ++ " out of range"
  | incompleteString raw => "not a complete string literal: " ++ raw
  | unknownEntity reference => "unknown entity reference " ++ quoted reference
  | malformedReference reference => "malformed character reference " ++ quoted reference
  | nonXmlCharacter reference =>
      "character reference " ++ quoted reference ++ " does not denote an XML character"
  | incompleteReference reference => "incomplete entity reference " ++ quoted reference
  | invalidNCName text => "invalid NCName " ++ quoted text
  | invalidQName text => "invalid QName " ++ quoted text
  | undeclaredPrefix pre => "namespace prefix " ++ quoted pre ++ " is not declared"
  | invalidDuration type text => "invalid lexical form for " ++ type.text ++ ": " ++ quoted text
  | durationOutOfRange type text => type.text ++ " " ++ quoted text ++ " is out of range"
  | undeclaredVariable name => "variable $" ++ name.text ++ " is not declared"
  | unresolvedFunction error => error.message

/-- What the fault is put down to. Integers and decimals out of range are refused when their digits
are read; a double is read, and is infinite. -/
def cause : Fault → Option String
  | literalOutOfRange .integer _ | literalOutOfRange .decimal _ =>
      some "number too large to fit in target type"
  | _ => none

/-- The error that reports the fault. -/
def toError (f : Fault) : Error := { Error.ofCode f.code f.message with cause := f.cause }

end Fault

end XQuery
