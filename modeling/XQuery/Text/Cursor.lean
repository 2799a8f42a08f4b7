import XQuery.Text.Utf16

/-!
# The cursor

A cursor reads a region of a UTF-16 buffer code point by code point. The current token is the
half-open range from `start` to `stop`. What lies between `stop` and the end of the region is kept
decoded in `ahead`, so that a scanner is a function on a list of code points: a surrogate pair is
combined exactly when both halves lie inside the region.
-/

namespace XQuery

/-- A position in a region of a buffer, with the token that is being read. -/
structure Cursor where
  /-- The whole buffer. -/
  units : Array UInt16 := #[]
  /-- Where the current token starts. -/
  start : Nat := 0
  /-- Where the current token ends so far. -/
  stop : Nat := 0
  /-- The end of the region. -/
  limit : Nat := 0
  /-- The code points from `stop` to `limit`. -/
  ahead : List CodePoint := []
  /-- The last checkpoint. -/
  saved : Nat := 0

namespace Cursor

/-- The code points between two offsets of a buffer. -/
def slice (units : Array UInt16) (first last : Nat) : List CodePoint :=
  Utf16.decode (units.extract first last).toList

/-- A cursor at the start of the region from `first` to `last`; offsets past the buffer are moved
back to its end. -/
def ofRegion (units : Array UInt16) (first last : Nat) : Cursor :=
  let limit := min last units.size
  let start := min first limit
  { units, start, stop := start, limit, ahead := slice units start limit, saved := start }

/-- The code point at the cursor, if one is left. -/
def peek (c : Cursor) : Option CodePoint := c.ahead.head?

/-- Whether the region is used up. -/
def atEnd (c : Cursor) : Bool := c.limit ≤ c.stop

/-- Extend the token by one code point; at the end of the region nothing happens. -/
def advance (c : Cursor) : Cursor :=
  match c.ahead with
  | [] => c
  | p :: rest => { c with stop := c.stop + p.width, ahead := rest }

/-- Extend the token by up to `n` code points. -/
def skip (c : Cursor) : Nat → Cursor
  | 0 => c
  | n + 1 => if c.ahead.isEmpty then c else c.advance.skip n

/-- Begin a new token at the cursor. -/
def flush (c : Cursor) : Cursor := { c with start := c.stop }

/-- Set the checkpoint. -/
def save (c : Cursor) : Cursor := { c with saved := c.stop }

/-- Go back to the checkpoint. -/
def restore (c : Cursor) : Cursor :=
  { c with stop := c.saved, ahead := slice c.units c.saved c.limit }

/-- The cursor of a reader that takes over where this one stands. -/
def resume (c : Cursor) : Cursor := { c with start := c.stop, saved := c.stop }

/-- The text of the current token. There is none when a checkpoint from before the token has been
restored. -/
def text? (c : Cursor) : Option String :=
  if c.start ≤ c.stop then some (Utf16.text (c.units.extract c.start c.stop).toList) else none

end Cursor

end XQuery
