import XQuery.Name.QName
import XQuery.Number.Double
import XQuery.Value.Duration
import XQuery.Value.Origin

/-!
# Atomic values

The atomic values of the data model, their types, texts and equality.
-/

namespace XQuery

/-- The role that a URI plays where it is written. -/
inductive UriRole where
  | namespaceDeclaration
  | location
  | collation
  | baseUri
  | resource
deriving DecidableEq, Repr

/-- Read an `xs:NCName`. -/
def parseNCName (s : String) : Except Fault String :=
  if isNCName s.toList then .ok s else .error (.invalidNCName s)

/-- An atomic value. -/
inductive AtomicValue where
  | string (data : String)
  | untyped (data : String)
  | decimal (data : Decimal)
  | integer (data : Int)
  | double (data : Double)
  | uri (data : String) (role : UriRole)
  | qname (data : QName)
  | duration (data : Duration)
  /-- A value of type `xs:NCName`; `parseNCName` reads one. -/
  | ncName (data : String)
deriving DecidableEq

namespace AtomicValue

/-- The type of the value. -/
def type : AtomicValue → AtomicType
  | string _ => .string
  | untyped _ => .untypedAtomic
  | decimal _ => .decimal
  | integer _ => .integer
  | double _ => .double
  | uri .. => .anyUri
  | qname _ => .qname
  | duration d => d.kind.type
  | ncName _ => .ncName

/-- Whether the value is an instance of the type. -/
def instanceOf (v : AtomicValue) (t : AtomicType) : Bool := v.type.derivesFrom t

/-- The text of the value. -/
def text : AtomicValue → String
  | string s | untyped s | uri s _ | ncName s => s
  | decimal d => d.normalize.text
  | integer n => toString n
  | double d => d.text
  | qname n => n.text
  | duration d => d.text

/-- Equality of values of one kind. NaN differs from itself, the scale of a decimal and the kind of
a duration do not count, and the role of a URI does. -/
def equal : AtomicValue → AtomicValue → Bool
  | string a, string b | untyped a, untyped b | ncName a, ncName b => a == b
  | decimal a, decimal b => a.equal b
  | integer a, integer b => a == b
  | double a, double b => a.equal b
  | uri a r, uri b s => a == b && r == s
  | qname a, qname b => a.equal b
  | duration a, duration b => a.equal b
  | _, _ => false

end AtomicValue

/-- A value with its origin. -/
structure Item where
  value : AtomicValue
  origin : Origin := {}

/-- Equality of items is equality of their values. -/
def Item.equal (a b : Item) : Bool := a.value.equal b.value

end XQuery
