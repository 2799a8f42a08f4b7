import XQuery.Lexer.Combined
import XQuery.Report.Json
import XQuery.Report.Style

/-!
# Token listings

The tokens of a source with their texts, as a listing of one line per token or as JSON.
-/

namespace XQuery

/-- A token of a source and the text that it covers. -/
structure TokenEntry where
  token : Token
  text : String
deriving DecidableEq

namespace TokenEntry

/-- Whether the token was read by the documentation lexer. -/
def isDocumentation (e : TokenEntry) : Bool := e.token.state / documentationId % 2 == 1

/-- The style of the token's kind. -/
def style (e : TokenEntry) : Style :=
  match e.token.kind with
  | .keyword _ => .blue
  | .badCharacter | .partialComment | .partialEntityReference | .emptyEntityReference
  | .partialDoubleLiteralExponent => .boldRed
  | kind => if kind.isDoc then .green else if kind.isTrivia then .dimmed else .plain

/-- The line of the token: its span, its kind and its text in quotes. -/
def line (colors : Bool) (e : TokenEntry) : String :=
  toString e.token.start ++ ".." ++ toString e.token.stop ++ " " ++
    e.style.apply colors e.token.kind.label ++ " " ++ Text.quote e.text

/-- The token as JSON. -/
def json (e : TokenEntry) : JsonValue :=
  .object
    [("kind", .string e.token.kind.label), ("start", .number e.token.start),
     ("end", .number e.token.stop), ("state", .number e.token.state),
     ("xqdoc", .bool e.isDocumentation), ("text", .string e.text)]

end TokenEntry

/-- The tokens of a source, with or without documentation tokens and trivia. -/
def tokenize (source : String) (documentation skipTrivia : Bool) : List TokenEntry :=
  let units := (Utf16.encode source).toArray
  let lexer := if documentation then Lexer.documented else Lexer.expression
  ((lexer.tokens units 0 units.size 0).filter fun t => !(skipTrivia && t.kind.isTrivia)).map
    fun t => { token := t, text := Utf16.text (units.extract t.start t.stop).toList }

/-- The listing of tokens. -/
def tokenListing (colors : Bool) (entries : List TokenEntry) : String :=
  lines (entries.map (·.line colors))

/-- The tokens as JSON. -/
def tokenJson (entries : List TokenEntry) : String := (JsonValue.array (entries.map (·.json))).text

end XQuery
