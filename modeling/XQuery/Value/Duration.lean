import XQuery.Error.Fault
import XQuery.Number.Decimal
import XQuery.Number.Signed64
import XQuery.Text.Regex

/-!
# Durations

A duration is a number of months and a number of seconds. `xs:yearMonthDuration` has only months
and `xs:dayTimeDuration` only seconds; durations of one family are ordered, others are not
comparable unless they are equal.
-/

namespace XQuery

/-- The type of a duration. -/
inductive DurationKind where
  | duration
  | yearMonth
  | dayTime
deriving DecidableEq, Repr

/-- The atomic type of the kind. -/
def DurationKind.type : DurationKind → AtomicType
  | duration => .duration
  | yearMonth => .yearMonthDuration
  | dayTime => .dayTimeDuration

/-- A duration. -/
structure Duration where
  months : Int
  seconds : Decimal
  kind : DurationKind
deriving DecidableEq

namespace Duration

/-! ## Patterns -/

/-- One or more digits: `[0-9]+`. -/
def digits : Regex := .all [.one Char.isDigit, .many Char.isDigit]

/-- A number that may have a point: `[0-9]+(?:\.[0-9]*)?|\.[0-9]+`. -/
def pointDigits : Regex :=
  .either (.all [digits, .optional (.all [.char '.', .many Char.isDigit])])
    (.all [.char '.', digits])

/-- A component that may be left out, with its number as group `i`: `(?:(number)unit)?`. -/
def component (i : Nat) (number : Regex) (unit : Char) : Regex :=
  .optional (.all [.group i number, .char unit])

/-- The components of the time behind `T`, which may be left out as a whole. -/
def timeForm : Regex :=
  .optional (.all [.char 'T', component 5 digits 'H', component 6 digits 'M',
    component 7 pointDigits 'S'])

/-- The form of durations: a sign, `P`, and the components in their order. -/
def form : Regex :=
  .all [.start, .optional (.group 1 (.char '-')), .char 'P', component 2 digits 'Y',
    component 3 digits 'M', component 4 digits 'D', timeForm, .stop]

/-- What has the form but is no duration: no component at all, or none behind `T`. It is written
`^-?P$|T$`. -/
def incomplete : Regex :=
  .either (.all [.start, .optional (.char '-'), .char 'P', .stop]) (.all [.char 'T', .stop])

/-! ## Reading -/

/-- The components that the text of a duration writes, as they are written without their letters. -/
structure Components where
  negative : Bool
  years : Option (List Char)
  months : Option (List Char)
  days : Option (List Char)
  hours : Option (List Char)
  minutes : Option (List Char)
  seconds : Option (List Char)
deriving DecidableEq

namespace Components

/-- The components that the groups of the form have matched. -/
def ofGroups (groups : Regex.Groups) : Components where
  negative := (groups.lookup 1).isSome
  years := groups.lookup 2
  months := groups.lookup 3
  days := groups.lookup 4
  hours := groups.lookup 5
  minutes := groups.lookup 6
  seconds := groups.lookup 7

/-- Read a text that has the form of a duration and is not incomplete. -/
def ofChars? (cs : List Char) : Option Components :=
  if incomplete.isMatch cs then none else (form.captures? cs).map ofGroups

/-- Whether years or months are written. -/
def hasYearMonth (c : Components) : Bool := c.years.isSome || c.months.isSome

/-- Whether days or a time are written. -/
def hasDayTime (c : Components) : Bool :=
  c.days.isSome || c.hours.isSome || c.minutes.isSome || c.seconds.isSome

/-- Whether a duration of the kind may have these components. -/
def allowed (c : Components) : DurationKind → Bool
  | .duration => true
  | .yearMonth => !c.hasDayTime
  | .dayTime => !c.hasYearMonth

/-- The integer that a component writes; an absent one is zero. -/
def integer? : Option (List Char) → Option Int
  | none => some 0
  | some digits => Signed64.ofDigits? digits

/-- The decimal number that a component writes; an absent one is zero. A point has a digit put in
front of it or is dropped where it has none on that side. -/
def decimal? : Option (List Char) → Option Decimal
  | none => some .zero
  | some number =>
      match (Text.stripEnd? ['.'] number).getD number with
      | '.' :: fraction => Decimal.ofText? (String.ofList ('0' :: '.' :: fraction))
      | number => Decimal.ofText? (String.ofList number)

/-- All months, as far as every step fits. -/
def totalMonths? (c : Components) : Option Int := do
  let years ← integer? c.years
  let months ← integer? c.months
  Signed64.add? (← Signed64.mul? years 12) months

/-- All seconds, as far as every step fits. -/
def totalSeconds? (c : Components) : Option Decimal := do
  let days ← decimal? c.days
  let hours ← decimal? c.hours
  let minutes ← decimal? c.minutes
  let seconds ← decimal? c.seconds
  let hours ← (← days.mulNat? 24).add? hours
  let minutes ← (← hours.mulNat? 60).add? minutes
  (← minutes.mulNat? 60).add? seconds

/-- The duration that the components add up to. -/
def toDuration? (c : Components) (kind : DurationKind) : Option Duration := do
  let months ← c.totalMonths?
  let seconds ← c.totalSeconds?
  if c.negative then
    let months ← Signed64.neg? months
    return { months, seconds := seconds.neg, kind }
  else return { months, seconds, kind }

end Components

/-- Read a duration of a kind. A text that is no duration of the kind is invalid; one whose months
or seconds are too many is out of range. -/
def parse (s : String) (kind : DurationKind) : Except Fault Duration :=
  match Components.ofChars? s.toList with
  | none => .error (.invalidDuration kind.type s)
  | some c =>
      if c.allowed kind then
        match c.toDuration? kind with
        | some d => .ok d
        | none => .error (.durationOutOfRange kind.type s)
      else .error (.invalidDuration kind.type s)

/-! ## Parts -/

/-- Whether the duration is below zero. -/
def isNegative (d : Duration) : Bool :=
  d.months < 0 || (d.seconds.negative && !d.seconds.isZero)

/-- The whole years. -/
def years (d : Duration) : Int := d.months.tdiv 12

/-- The months that make no whole year. -/
def monthsPart (d : Duration) : Int := d.months.tmod 12

/-- The whole days. -/
def days (d : Duration) : Decimal := (d.seconds.divNat 86400).trunc

/-- The whole hours that make no day. -/
def hours (d : Duration) : Decimal := ((d.seconds.modNat 86400).divNat 3600).trunc

/-- The whole minutes that make no hour. -/
def minutes (d : Duration) : Decimal := ((d.seconds.modNat 3600).divNat 60).trunc

/-- The seconds that make no minute. -/
def secondsPart (d : Duration) : Decimal := d.seconds.modNat 60

/-! ## Comparing -/

/-- Whether months and seconds are equal; the kind does not count. -/
def equal (a b : Duration) : Bool := a.months == b.months && a.seconds.equal b.seconds

/-- The order of durations that both have no months or both have no seconds. -/
def cmp? (a b : Duration) : Option Ordering :=
  if a.equal b then some .eq
  else if a.months = 0 ∧ b.months = 0 then some (a.seconds.cmp b.seconds)
  else if a.seconds.isZero ∧ b.seconds.isZero then some (compare a.months b.months)
  else none

/-! ## Writing -/

/-- A component with its letter; a component of zero is left out. -/
def written (number : String) (isZero : Bool) (unit : String) : String :=
  if isZero then "" else number ++ unit

/-- The canonical text. -/
def text (d : Duration) : String :=
  if d.months = 0 ∧ d.seconds.isZero then
    if d.kind = .yearMonth then "P0M" else "PT0S"
  else
    let years := d.years.natAbs
    let months := d.monthsPart.natAbs
    let days := d.days.abs
    let hours := d.hours.abs
    let minutes := d.minutes.abs
    let seconds := d.secondsPart.abs.normalize
    let date := written (toString years) (years == 0) "Y" ++
      written (toString months) (months == 0) "M" ++ written days.text days.isZero "D"
    let time := written hours.text hours.isZero "H" ++
      written minutes.text minutes.isZero "M" ++ written seconds.text seconds.isZero "S"
    (if d.isNegative then "-P" else "P") ++ date ++ (if time = "" then "" else "T" ++ time)

end Duration

end XQuery
