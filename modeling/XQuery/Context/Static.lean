import XQuery.Context.Functions
import XQuery.Name.QName

/-!
# The static context

What is known about a query before it runs: namespace bindings, default namespaces, variables and
functions. Lexical names are expanded against it.
-/

namespace XQuery

/-- Namespace bindings, as pairs of a prefix and a URI; a prefix occurs once. -/
structure Bindings where
  pairs : List (String × String)

namespace Bindings

/-- The URI that the prefix is bound to. -/
def get? (b : Bindings) (pre : String) : Option String := b.pairs.lookup pre

/-- Remove the binding of a prefix. -/
def erase (b : Bindings) (pre : String) : Bindings := ⟨b.pairs.filter (·.1 != pre)⟩

/-- Bind a prefix, in place of an earlier binding. -/
def insert (b : Bindings) (pre uri : String) : Bindings := ⟨(pre, uri) :: (b.erase pre).pairs⟩

/-- The bindings in the order of the prefixes. -/
def sorted (b : Bindings) : List (String × String) :=
  b.pairs.mergeSort fun x y => x.1 ≤ y.1

end Bindings

/-- How a name without prefix gets its namespace. -/
inductive NameKind where
  | element
  | type
  | function
  | attribute
  | variable
deriving DecidableEq, Repr

/-- What is known before a query runs. -/
structure Context where
  /-- The namespace of element and type names without prefix. -/
  defaultElementUri : Option String := none
  /-- The namespace of function names without prefix. -/
  defaultFunctionUri : Option String := some Namespace.functions
  namespaces : Bindings := ⟨Namespace.predefined⟩
  /-- The variables that a query may refer to without binding them. -/
  declared : List ExpandedName := []
  signatures : Signatures := .builtIn

namespace Context

/-- Bind a prefix. The prefixes `xml` and `xmlns` cannot be bound, and an empty URI removes the
binding. -/
def withNamespace (c : Context) (pre uri : String) : Context :=
  if pre = "xml" ∨ pre = "xmlns" then c
  else if uri = "" then { c with namespaces := c.namespaces.erase pre }
  else { c with namespaces := c.namespaces.insert pre uri }

/-- Set the namespace of element and type names without prefix; an empty URI means none. -/
def withDefaultElementUri (c : Context) (uri : String) : Context :=
  { c with defaultElementUri := if uri = "" then none else some uri }

/-- Set the namespace of function names without prefix. -/
def withDefaultFunctionUri (c : Context) (uri : String) : Context :=
  { c with defaultFunctionUri := some uri }

/-- Declare a variable. -/
def withVariable (c : Context) (name : ExpandedName) : Context :=
  { c with declared := if name ∈ c.declared then c.declared else name :: c.declared }

/-- Replace the known functions. -/
def withSignatures (c : Context) (signatures : Signatures) : Context := { c with signatures }

/-- The URI that a prefix is bound to. -/
def resolvePrefix? (c : Context) (pre : String) : Option String := c.namespaces.get? pre

/-- The declared variables in the order of names. -/
def sortedVariables (c : Context) : List ExpandedName := c.declared.mergeSort ExpandedName.le

/-- The namespace of names without prefix. -/
def defaultUri (c : Context) : NameKind → Option String
  | .element | .type => c.defaultElementUri
  | .function => c.defaultFunctionUri
  | .attribute | .variable => none

/-- Resolve a function call. -/
def resolveFunction (c : Context) (name : ExpandedName) (arity : Nat) :
    Except Fault ResolvedFunction :=
  (c.signatures.resolve name arity c.defaultFunctionUri).mapError .unresolvedFunction

end Context

/-- Resolve the namespace of a name. A prefix must be bound; a name without prefix takes the default
namespace of its kind. An expanded name is left as it is. -/
def QName.expand (n : QName) (c : Context) (kind : NameKind) : Except Fault QName :=
  if n.isLexical then
    match n.pre with
    | none => .ok (.inNamespace (c.defaultUri kind) none n.localName)
    | some pre =>
        match c.resolvePrefix? pre with
        | some uri => .ok (.inNamespace (some uri) (some pre) n.localName)
        | none => .error (.undeclaredPrefix pre)
  else .ok n

end XQuery
