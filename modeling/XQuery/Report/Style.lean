/-!
# Terminal styles

Colours and weights of words in a report, written as terminal escape sequences.
-/

namespace XQuery

/-- How a word is shown on a terminal. -/
inductive Style where
  | plain
  | dimmed
  | boldRed
  | rgb (red green blue : Nat)
  | boldRgb (red green blue : Nat)
deriving DecidableEq, Repr

namespace Style

/-- The escape sequence with these parameters. -/
def sequence (parameters : String) : String := "\x1b[" ++ parameters ++ "m"

/-- A colour component, in three digits. -/
def component (n : Nat) : String :=
  let digits := Nat.toDigits 10 n
  String.ofList (List.replicate (3 - digits.length) '0' ++ digits)

/-- The sequence that selects a foreground colour. -/
def foreground (red green blue : Nat) : String :=
  sequence ("38;2;" ++ component red ++ ";" ++ component green ++ ";" ++ component blue)

/-- The sequence that selects the default foreground colour. -/
def defaultForeground : String := sequence "39"

/-- The text in bold. -/
def bold (text : String) : String := sequence "1" ++ text ++ sequence "0"

/-- The text in the style; without colours it is left as it is. -/
def apply (colors : Bool) (style : Style) (text : String) : String :=
  if colors then
    match style with
    | plain => text
    | dimmed => sequence "2" ++ text ++ sequence "0"
    | boldRed => sequence "31" ++ bold text ++ defaultForeground
    | rgb red green blue => foreground red green blue ++ text ++ defaultForeground
    | boldRgb red green blue => foreground red green blue ++ bold text ++ defaultForeground
  else text

/-- Reserved words and canonical durations. -/
def blue : Style := boldRgb 79 166 255

/-- Expanded names. -/
def pink : Style := boldRgb 241 149 255

/-- Documentation. -/
def green : Style := rgb 136 192 74

end Style

/-- The answer to a yes-or-no question. -/
def yesNo (b : Bool) : String := if b then "yes" else "no"

/-- Lines as one text, without a line break at its end. -/
def lines (ls : List String) : String := "\n".intercalate ls

end XQuery
