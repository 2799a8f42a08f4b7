/-!
# UTF-16 text

A buffer is a sequence of 16-bit units in which surrogates may stand alone. `decode` reads it as
code points, `encode` writes a string as units, and `text` is the string that a sequence of units
shows: a surrogate without its partner becomes U+FFFD.
-/

namespace XQuery

/-- A Unicode code point. A surrogate that has no partner counts as one. -/
abbrev CodePoint := Nat

/-- The number of units that write the code point. -/
def CodePoint.width (p : CodePoint) : Nat := if p < 0x10000 then 1 else 2

namespace Utf16

/-- The first half of a surrogate pair. -/
def isHigh (u : UInt16) : Bool := 0xD800 ≤ u.toNat && u.toNat ≤ 0xDBFF

/-- The second half of a surrogate pair. -/
def isLow (u : UInt16) : Bool := 0xDC00 ≤ u.toNat && u.toNat ≤ 0xDFFF

/-- The code point that a surrogate pair denotes. -/
def combine (high low : UInt16) : CodePoint :=
  0x10000 + (high.toNat - 0xD800) * 0x400 + (low.toNat - 0xDC00)

/-- Read units as code points: adjacent halves are combined, every other unit stands for itself. -/
def decode : List UInt16 → List CodePoint
  | [] => []
  | [u] => [u.toNat]
  | u :: v :: rest =>
      if isHigh u && isLow v then combine u v :: decode rest
      else u.toNat :: decode (v :: rest)

/-- The units that write one code point. -/
def encodePoint (p : CodePoint) : List UInt16 :=
  if p < 0x10000 then [p.toUInt16]
  else [(0xD800 + (p - 0x10000) / 0x400).toUInt16, (0xDC00 + (p - 0x10000) % 0x400).toUInt16]

/-- The units that write a string. -/
def encode (s : String) : List UInt16 := s.toList.flatMap (fun c => encodePoint c.toNat)

/-- The character of a code point; a lone surrogate is shown as U+FFFD. -/
def toChar (p : CodePoint) : Char :=
  if p.isValidChar then Char.ofNat p else Char.ofNat 0xFFFD

/-- The string that a sequence of units shows. -/
def text (units : List UInt16) : String := String.ofList ((decode units).map toChar)

end Utf16

end XQuery
