import XQuery.Error.Fault
import XQuery.Name.NCName

/-!
# Qualified names

A QName as it is written, with an optional prefix, or expanded, with its namespace resolved.
Parsing accepts `name`, `prefix:name` and `Q{uri}name`.
-/

namespace XQuery

/-- A qualified name. The fields are set independently of one another; `lexical`, `expanded` and
`inNamespace` set those of a name as it is written and of one whose namespace is resolved. -/
structure QName where
  /-- The namespace, as far as it is known. -/
  uri : Option String
  /-- The prefix that the name is written with. -/
  pre : Option String
  /-- The name without its prefix and namespace. -/
  localName : String
  /-- Whether the namespace is still to be resolved. -/
  isLexical : Bool
deriving DecidableEq

namespace QName

/-- A name as written; its namespace is not known. -/
def lexical (pre : Option String) (localName : String) : QName :=
  { uri := none, pre, localName, isLexical := true }

/-- A name with its namespace, and the prefix that it was written with. -/
def expanded (uri pre : Option String) (localName : String) : QName :=
  { uri, pre, localName, isLexical := false }

/-- An expanded name; an empty URI means no namespace. -/
def inNamespace (uri pre : Option String) (localName : String) : QName :=
  expanded (uri.filter (· != "")) pre localName

/-- The expanded name, once the namespace is resolved. -/
def expandedName? (n : QName) : Option ExpandedName :=
  if n.isLexical then none else some ⟨n.uri, n.localName⟩

/-- The name with its prefix or, where it has none and is expanded, with its namespace. -/
def text (n : QName) : String :=
  match n.pre, n.uri with
  | some pre, _ => pre ++ ":" ++ n.localName
  | none, some uri => if n.isLexical then n.localName else ExpandedName.braced uri n.localName
  | none, none => n.localName

/-- The URI-qualified form of an expanded name; a lexical name as written. -/
def eqName (n : QName) : String :=
  match n.expandedName? with
  | some e => ExpandedName.braced (e.uri.getD "") e.localName
  | none => n.text

/-- Equality of names. Two lexical names are compared by prefix; once one is expanded the
namespaces count. -/
def equal (a b : QName) : Bool :=
  a.localName == b.localName &&
    (if a.isLexical && b.isLexical then a.pre == b.pre else a.uri == b.uri)

/-- Read the part of a URI-qualified name after `Q{`. -/
def ofBraced? (cs : List Char) : Option QName :=
  match Text.splitAtFirst? (· == '\x7d') cs with
  | some (uri, rest) =>
      if !uri.contains '\x7b' && isNCName rest then
        some (inNamespace (some (String.ofList uri)) none (String.ofList rest))
      else none
  | none => none

/-- Read a name with or without a prefix. -/
def ofLexical? (cs : List Char) : Option QName :=
  match Text.splitAtFirst? (· == ':') cs with
  | some (pre, rest) =>
      if isNCName pre && isNCName rest then
        some (lexical (some (String.ofList pre)) (String.ofList rest))
      else none
  | none => if isNCName cs then some (lexical none (String.ofList cs)) else none

/-- Read a name in any of its forms. -/
def ofChars? (cs : List Char) : Option QName :=
  match Text.strip? "Q\x7b".toList cs with
  | some rest => ofBraced? rest
  | none => ofLexical? cs

/-- Read a name in any of its forms. -/
def parse (s : String) : Except Fault QName :=
  match ofChars? s.toList with
  | some n => .ok n
  | none => .error (.invalidQName s)

end QName

end XQuery
