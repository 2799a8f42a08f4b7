import XQuery.Number.Digits

/-!
# Integers of 64 bits

Whole numbers that fit into 64 bits with a sign. An operation has no result where the exact one does
not fit.
-/

namespace XQuery.Signed64

/-- The numbers are below this one, and not below its opposite. -/
def limit : Int := Int.pow 2 63

/-- The number, if it fits. -/
def ofInt? (n : Int) : Option Int := if -limit ≤ n ∧ n < limit then some n else none

/-- The number that digits write. -/
def ofDigits? (cs : List Char) : Option Int :=
  if Digits.isDigits cs then ofInt? (Digits.value cs) else none

/-- The sum. -/
def add? (a b : Int) : Option Int := ofInt? (a + b)

/-- The product. -/
def mul? (a b : Int) : Option Int := ofInt? (a * b)

/-- The opposite number. -/
def neg? (a : Int) : Option Int := ofInt? (-a)

end XQuery.Signed64
