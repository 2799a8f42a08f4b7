import XQuery.Context.Static

/-!
# Variable scopes

The variables that enclosing expressions bind, scope by scope, over those of the static context.
-/

namespace XQuery

/-- Where a variable reference is resolved. -/
inductive VariableBinding where
  /-- An enclosing expression binds the variable; scopes are counted outwards from zero. -/
  | inScope (depth : Nat)
  /-- The static context declares the variable. -/
  | declared
deriving DecidableEq, Repr

/-- The open scopes with the variables bound in each, the innermost first. -/
structure Scopes where
  scopes : List (List ExpandedName) := []

namespace Scopes

/-- Open a scope. -/
def enter (s : Scopes) : Scopes := ⟨[] :: s.scopes⟩

/-- Close the innermost scope; false when none is open. -/
def exit (s : Scopes) : Bool × Scopes := (!s.scopes.isEmpty, ⟨s.scopes.tail⟩)

/-- The number of open scopes. -/
def depth (s : Scopes) : Nat := s.scopes.length

/-- Bind a variable in the innermost scope; if none is open, one is opened. -/
def bind (s : Scopes) (name : ExpandedName) : Scopes :=
  match s.scopes with
  | [] => ⟨[[name]]⟩
  | scope :: outer => ⟨(name :: scope) :: outer⟩

/-- Find where a variable is bound: in the innermost scope that binds it, or else in the static
context. -/
def resolve (s : Scopes) (c : Context) (name : ExpandedName) : Except Fault VariableBinding :=
  match s.scopes.findIdx? (·.contains name) with
  | some depth => .ok (.inScope depth)
  | none => if name ∈ c.declared then .ok .declared else .error (.undeclaredVariable name)

end Scopes

end XQuery
