import XQuery.Report.Json
import XQuery.Report.Style
import XQuery.Value.Duration

/-!
# Duration reports

What a duration is in canonical form.
-/

namespace XQuery.Duration

/-- The type, canonical text, months, seconds and sign of a duration, line by line. -/
def report (d : Duration) (colors : Bool) : String :=
  lines
    [d.kind.type.text ++ " (" ++ Style.blue.apply colors d.text ++ ")",
     "Months: " ++ toString d.months,
     "Seconds: " ++ d.seconds.normalize.text,
     "Negative: " ++ yesNo d.isNegative]

/-- The same with the text that the duration was read from, as JSON. -/
def reportJson (d : Duration) (lexical : String) : String :=
  (JsonValue.object
    [("lexical", .string lexical), ("type", .string d.kind.type.text),
     ("canonical", .string d.text), ("months", .number d.months),
     ("seconds", .string d.seconds.normalize.text), ("negative", .bool d.isNegative)]).text

end XQuery.Duration
