import XQuery.Text.CharClass

/-!
# Names without a colon

The `NCName` production of XML namespaces.
-/

namespace XQuery

/-- Whether the character may start a name. -/
def isNameStartChar (c : Char) : Bool := (CharClass.of c.toNat).isNameStart

/-- Whether the character may continue a name. -/
def isNameChar (c : Char) : Bool := (CharClass.of c.toNat).isName

/-- A character that starts a name, followed by characters that continue it. -/
def isNCName : List Char → Bool
  | [] => false
  | c :: cs => isNameStartChar c && cs.all isNameChar

end XQuery
