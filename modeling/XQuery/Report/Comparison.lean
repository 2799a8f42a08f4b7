import XQuery.Name.QName
import XQuery.Report.Json
import XQuery.Report.Style

/-!
# Comparison reports

Two names, as written and in URI-qualified form, and whether they are equal.
-/

namespace XQuery

/-- Two names with the texts that they were read from. -/
structure Comparison where
  leftText : String
  left : QName
  rightText : String
  right : QName
  /-- Whether the names were expanded before they were compared. -/
  expanded : Bool

namespace Comparison

/-- Whether the names are equal. -/
def equal (c : Comparison) : Bool := c.left.equal c.right

/-- The line of one name. -/
def nameLine (colors : Bool) (label text : String) (name : QName) : String :=
  label ++ ": " ++ text ++ " -> " ++ Style.pink.apply colors name.eqName

/-- The names, how they were compared and the outcome, line by line. -/
def report (c : Comparison) (colors : Bool) : String :=
  lines
    [nameLine colors "A" c.leftText c.left, nameLine colors "B" c.rightText c.right,
     "Comparison: " ++ (if c.expanded then "expanded" else "lexical"),
     "equal: " ++ yesNo c.equal]

/-- One name as JSON. -/
def nameJson (text : String) (name : QName) : JsonValue :=
  .object
    [("lexical", .string text), ("prefix", .ofOption name.pre),
     ("namespace", .ofOption name.uri), ("local_name", .string name.localName),
     ("eqname", .string name.eqName)]

/-- The comparison as JSON. -/
def reportJson (c : Comparison) : String :=
  (JsonValue.object
    [("left", nameJson c.leftText c.left), ("right", nameJson c.rightText c.right),
     ("expanded", .bool c.expanded), ("equal", .bool c.equal)]).text

end Comparison

end XQuery
