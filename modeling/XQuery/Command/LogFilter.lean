import XQuery.Number.Digits
import XQuery.Pattern.Reader
import XQuery.Text.Bytes

/-!
# Log filters

A filter is a list of directives with commas between them. A directive names a level, a target, a
span or a target with its level, as in `warn`, `xquery`, `[span]` and `xquery=debug`. A span may
have a field in braces, and the field a pattern for its value: `[span{name=a+}]`.

The parts of a directive are found in its text without the white space around it, and are cut out
of the text with the white space, at the same numbers of bytes. So white space in front moves every
part, and a part may start or end inside a character.
-/

namespace XQuery.LogFilter

/-- What is wrong with a filter. -/
inductive Fault where
  | malformed
  /-- A part starts or ends inside a character. -/
  | insideCharacter
deriving DecidableEq, Repr

/-! ## Parts of a directive -/

/-- The names of the levels. -/
def levelNames : List String := ["off", "error", "warn", "info", "debug", "trace"]

/-- A level: nothing, a name in either case, or a number from zero to five. -/
def isLevel (cs : List Char) : Bool :=
  let digits := (Text.strip? ['+'] cs).getD cs
  cs.isEmpty || levelNames.contains (String.ofList (cs.map Char.toLower))
    || (Digits.isDigits digits && Digits.value digits ≤ 5)

/-- The text without a sign in front. -/
def withoutSign : List Char → List Char
  | '+' :: cs => cs
  | '-' :: cs => cs
  | cs => cs

/-- Nothing, or an exponent. -/
def isExponent : List Char → Bool
  | [] => true
  | c :: cs => (c == 'e' || c == 'E') && Digits.isDigits (withoutSign cs)

/-- Digits with a point anywhere among them or none, and perhaps an exponent. -/
def isMagnitude (cs : List Char) : Bool :=
  let whole := cs.takeWhile Char.isDigit
  match cs.dropWhile Char.isDigit with
  | '.' :: cs =>
      !(whole ++ cs.takeWhile Char.isDigit).isEmpty && isExponent (cs.dropWhile Char.isDigit)
  | cs => !whole.isEmpty && isExponent cs

/-- A number, which may be infinite or none at all. -/
def isNumber (cs : List Char) : Bool :=
  let cs := withoutSign cs
  isMagnitude cs
    || ["inf", "infinity", "nan"].contains (String.ofList (cs.map Char.toLower))

/-- A field: a name, and perhaps a value after the first equals sign. A second one ends the value,
which is a number or a pattern. -/
def isField (cs : List Char) : Bool :=
  match Text.splitAtFirst? (· == '=') cs with
  | none => !cs.isEmpty
  | some (_, rest) =>
      let value := rest.takeWhile (· != '=')
      isNumber value || Pattern.isValid value

/-! ## Directives -/

/-- Succeed where the condition holds. -/
def check (condition : Bool) : Except Fault Unit :=
  if condition then .ok () else .error .malformed

/-- The part of a directive between two numbers of bytes. -/
def cut (whole : List Char) (first last : Nat) : Except Fault (List Char) :=
  match Text.sliceBytes? first last whole with
  | some part => .ok part
  | none => .error .insideCharacter

/-- Check that the directive ends with a level, which starts at byte `first`. -/
def checkLevel (whole : List Char) (first : Nat) : Except Fault Unit := do
  check (isLevel (← cut whole first (Text.byteLength whole)))

/-- Check what follows a span, from byte `first` on: nothing, or a level. -/
def checkAfterSpan (whole : List Char) (first : Nat) : List Char → Except Fault Unit
  | [] => .ok ()
  | '=' :: _ => checkLevel whole (first + 1)
  | _ => .error .malformed

/-- Check what follows the brace before a field. The field starts at byte `first`. -/
def checkField (whole : List Char) (first : Nat) (cs : List Char) : Except Fault Unit := do
  match Text.splitAtFirst? (· == '\x7d') cs with
  | none => .error .malformed
  | some (field, rest) =>
      let last := first + Text.byteLength field
      check (isField (← cut whole first last))
      match rest with
      | ']' :: rest => checkAfterSpan whole (last + 2) rest
      | _ => .error .malformed

/-- Check what follows the bracket before a span. The name of the span starts at byte `first`. -/
def checkSpan (whole : List Char) (first : Nat) (cs : List Char) : Except Fault Unit := do
  let name := cs.takeWhile fun c => c != ']' && c != '\x7b'
  let last := first + Text.byteLength name
  match cs.drop name.length with
  | [] => .error .malformed
  | c :: rest =>
      let _ ← cut whole first last
      if c = ']' then checkAfterSpan whole (last + 1) rest else checkField whole (last + 1) rest

/-- Whether a target may start with the character. -/
def startsTarget (c : Char) : Bool :=
  c == '-' || c == ':' || c == '_' || Text.isAlphanumeric c

/-- Check a directive. -/
def checkDirective (whole : List Char) : Except Fault Unit := do
  match Text.trim whole with
  | [] => .error .malformed
  | '[' :: cs => checkSpan whole 1 cs
  | c :: cs =>
      check (startsTarget c)
      let target := (c :: cs).takeWhile fun c => c != '=' && c != '['
      let last := Text.byteLength target
      match (c :: cs).drop target.length with
      | [] => .ok ()
      | c :: rest =>
          let _ ← cut whole 0 last
          if c = '=' then checkLevel whole (last + 1) else checkSpan whole (last + 1) rest

/-! ## Filters -/

/-- The parts of a text between commas. -/
def parts (cs : List Char) : List (List Char) :=
  cs.foldr
    (fun c acc =>
      if c == ',' then [] :: acc
      else match acc with
        | part :: rest => (c :: part) :: rest
        | [] => [[c]])
    [[]]

/-- Check a filter: the first directive with a fault decides, and empty ones are passed over. -/
def checkFilter (s : String) : Except Fault Unit :=
  (parts s.toList).forM fun cs => if cs.isEmpty then .ok () else checkDirective cs

end XQuery.LogFilter
