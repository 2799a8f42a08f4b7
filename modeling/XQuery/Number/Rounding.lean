/-!
# Rounding a quotient

The whole number nearest to a quotient; a half goes to the even neighbour.
-/

namespace XQuery

/-- The whole number nearest to `num / den`; of two equally near ones, the even one. -/
def roundHalfEven (num den : Nat) : Nat :=
  let q := num / den
  let r := num % den
  if 2 * r < den then q
  else if den < 2 * r then q + 1
  else if q % 2 = 0 then q else q + 1

end XQuery
