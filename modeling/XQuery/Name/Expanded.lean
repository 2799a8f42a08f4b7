/-!
# Expanded names

A name with its namespace: the URI, if there is one, and the local name.
-/

namespace XQuery

/-- A namespace URI and a local name. -/
structure ExpandedName where
  uri : Option String
  localName : String
deriving DecidableEq

namespace ExpandedName

/-- A URI in braces after `Q`, and a local name. -/
def braced (uri localName : String) : String := "Q\x7b" ++ uri ++ "\x7d" ++ localName

/-- The name as text: the URI in braces, unless there is none. -/
def text (n : ExpandedName) : String :=
  match n.uri with
  | some uri => braced uri n.localName
  | none => n.localName

/-- The order of names: no namespace first, then by URI, then by local name. -/
def le (a b : ExpandedName) : Bool :=
  match a.uri, b.uri with
  | none, none => a.localName ≤ b.localName
  | none, some _ => true
  | some _, none => false
  | some u, some v => u < v || (u == v && a.localName ≤ b.localName)

end ExpandedName

end XQuery
