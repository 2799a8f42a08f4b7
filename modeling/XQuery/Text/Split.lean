/-!
# Taking text apart

Cutting a text at the first place where a character satisfies a condition, and removing what it
starts with.
-/

namespace XQuery.Text

/-- What stands before and after the first character that satisfies `p`, the character apart. -/
def splitAtFirst? (p : Char → Bool) : List Char → Option (List Char × List Char)
  | [] => none
  | c :: cs =>
      if p c then some ([], cs)
      else (splitAtFirst? p cs).map fun (before, after) => (c :: before, after)

/-- What is left of a text that starts with `lead`. -/
def strip? : (lead text : List Char) → Option (List Char)
  | [], text => some text
  | _ :: _, [] => none
  | l :: lead, c :: text => if l = c then strip? lead text else none

/-- What is left of a text that ends with `tail`. -/
def stripEnd? (tail text : List Char) : Option (List Char) :=
  (strip? tail.reverse text.reverse).map List.reverse

end XQuery.Text
