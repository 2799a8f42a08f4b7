/-!
# Atomic types

The part of the hierarchy of XML Schema types whose values are represented.
-/

namespace XQuery

/-- An atomic type. -/
inductive AtomicType where
  | anyAtomicType
  | untypedAtomic
  | string
  | normalizedString
  | token
  | name
  | ncName
  | decimal
  | integer
  | double
  | anyUri
  | qname
  | duration
  | yearMonthDuration
  | dayTimeDuration
deriving DecidableEq, Repr

namespace AtomicType

/-- All types, a base type before the types derived from it. -/
def all : List AtomicType :=
  [anyAtomicType, untypedAtomic, string, normalizedString, token, name, ncName, decimal, integer,
   double, anyUri, qname, duration, yearMonthDuration, dayTimeDuration]

/-- The name of the type. -/
def text : AtomicType → String
  | anyAtomicType => "xs:anyAtomicType"
  | untypedAtomic => "xs:untypedAtomic"
  | string => "xs:string"
  | normalizedString => "xs:normalizedString"
  | token => "xs:token"
  | name => "xs:Name"
  | ncName => "xs:NCName"
  | decimal => "xs:decimal"
  | integer => "xs:integer"
  | double => "xs:double"
  | anyUri => "xs:anyURI"
  | qname => "xs:QName"
  | duration => "xs:duration"
  | yearMonthDuration => "xs:yearMonthDuration"
  | dayTimeDuration => "xs:dayTimeDuration"

/-- The type with this name. -/
def ofText? (s : String) : Option AtomicType := all.find? (·.text == s)

/-- The type that this one is derived from. -/
def base : AtomicType → Option AtomicType
  | anyAtomicType => none
  | normalizedString => some string
  | token => some normalizedString
  | name => some token
  | ncName => some name
  | integer => some decimal
  | yearMonthDuration | dayTimeDuration => some duration
  | untypedAtomic | string | decimal | double | anyUri | qname | duration => some anyAtomicType

/-- The type and the types above it, the nearest first; `fuel` bounds their number. -/
def ancestors (t : AtomicType) : Nat → List AtomicType
  | 0 => []
  | fuel + 1 =>
      match t.base with
      | none => [t]
      | some b => t :: b.ancestors fuel

/-- Whether the type is `other` or derived from it. No type has more ancestors than there are
types. -/
def derivesFrom (t other : AtomicType) : Bool := (t.ancestors all.length).contains other

end AtomicType

end XQuery
