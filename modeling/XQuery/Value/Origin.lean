/-!
# Origins

A value may point back to the syntax node that it was read from. The origin is for diagnostics: it
does not keep the node alive, and it plays no part in comparing values.
-/

namespace XQuery

/-- The span of a syntax node, in UTF-16 units. -/
structure Span where
  start : Nat
  stop : Nat
deriving DecidableEq, Repr

/-- The syntax nodes that were made; one that has been dropped keeps its number. -/
structure Nodes where
  spans : Array (Option Span) := #[]

namespace Nodes

/-- Add a node, and give its number. -/
def add (n : Nodes) (span : Span) : Nodes × Nat := (⟨n.spans.push (some span)⟩, n.spans.size)

/-- Drop a node. -/
def drop (n : Nodes) (id : Nat) : Nodes := ⟨n.spans.setIfInBounds id none⟩

/-- The span of a node, if it is still there. -/
def span? (n : Nodes) (id : Nat) : Option Span := (n.spans[id]?).join

end Nodes

/-- Where a value came from: a node, or nowhere. -/
structure Origin where
  node : Option Nat := none
deriving DecidableEq

namespace Origin

/-- Whether a node was recorded. -/
def isSet (o : Origin) : Bool := o.node.isSome

/-- The span of the recorded node, if it is still there. -/
def span? (o : Origin) (nodes : Nodes) : Option Span := o.node.bind nodes.span?

/-- The origin as diagnostics show it. -/
def text (o : Origin) (nodes : Nodes) : String :=
  match o.node, o.span? nodes with
  | none, _ => "Origin(none)"
  | some _, some span => "Origin(" ++ toString span.start ++ ".." ++ toString span.stop ++ ")"
  | some _, none => "Origin(dropped)"

end Origin

end XQuery
