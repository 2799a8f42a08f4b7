/-!
# Digits

Sequences of ASCII digits and the numbers that they write.
-/

namespace XQuery.Digits

/-- A non-empty sequence of ASCII digits. -/
def isDigits (cs : List Char) : Bool := !cs.isEmpty && cs.all Char.isDigit

/-- The number that one digit writes. -/
def digit (c : Char) : Nat := c.toNat - '0'.toNat

/-- The number that a sequence of decimal digits writes after the digits of `acc`. -/
def valueFrom (acc : Nat) (cs : List Char) : Nat := cs.foldl (fun n c => n * 10 + digit c) acc

/-- The number that a sequence of decimal digits writes; leading zeros are allowed. -/
def value (cs : List Char) : Nat := valueFrom 0 cs

/-- The number that one hexadecimal digit of either case writes. -/
def hexDigit (c : Char) : Nat :=
  if c.isDigit then digit c
  else if 'a' ≤ c ∧ c ≤ 'f' then c.toNat - 'a'.toNat + 10
  else c.toNat - 'A'.toNat + 10

/-- The number that a sequence of hexadecimal digits writes. -/
def hexValue (cs : List Char) : Nat := cs.foldl (fun n c => n * 16 + hexDigit c) 0

/-- The decimal digits of a number, without leading zeros. -/
def ofNat (n : Nat) : List Char := Nat.toDigits 10 n

/-- The digits with zeros in front, so that there are at least `width` of them. -/
def padLeft (width : Nat) (cs : List Char) : List Char :=
  List.replicate (width - cs.length) '0' ++ cs

end XQuery.Digits
