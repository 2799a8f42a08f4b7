import XQuery.Command.Arguments
import XQuery.Context.Static
import XQuery.Value.Duration

/-!
# Invocations

The commands of the tool, their options, and how a command line is read.
-/

namespace XQuery

open Arguments

/-- The form of a report. -/
inductive Format where
  | text
  | json
deriving DecidableEq, Repr

/-- The format with this name. -/
def Format.ofText? : String → Option Format
  | "text" => some .text
  | "json" => some .json
  | _ => none

/-- The kind of duration with this name. -/
def DurationKind.ofText? : String → Option DurationKind
  | "duration" => some .duration
  | "year-month" => some .yearMonth
  | "day-time" => some .dayTime
  | _ => none

/-- The kind of name with this name. -/
def NameKind.ofText? : String → Option NameKind
  | "element" => some .element
  | "type" => some .type
  | "function" => some .function
  | "attribute" => some .attribute
  | "variable" => some .variable
  | _ => none

/-- List the tokens of a source. -/
structure TokenizeOptions where
  /-- The file that holds the source; `-` stands for the standard input. -/
  path : String
  /-- Whether documentation comments are read as plain comments. -/
  noDocumentation : Bool := false
  skipTrivia : Bool := false
  format : Format := .text

/-- Show the canonical form of a duration. -/
structure DurationOptions where
  lexical : String
  kind : DurationKind := .duration
  format : Format := .text

/-- Compare two names. -/
structure QNameOptions where
  left : String
  right : String
  /-- The kind of name as which both are expanded first. -/
  expand : Option NameKind := none
  /-- Namespace bindings, as they are written. -/
  namespaces : List String := []
  defaultElementUri : Option String := none
  format : Format := .text

/-- A command of the tool. -/
inductive Command where
  | tokenize (options : TokenizeOptions)
  | duration (options : DurationOptions)
  | qname (options : QNameOptions)

/-- A command with the log filter that is set for it. -/
structure Invocation where
  logLevel : Option String
  command : Command

namespace Invocation

/-- The option that shows the help. -/
def helpOption : OptionSpec := { name := "help", letter := some 'h', action := .help }

/-- The option that sets the log filter, which every level has. -/
def logLevelOption : OptionSpec := { name := "log-level", action := .value fun _ => true }

/-- The option that sets the form of the report. -/
def formatOption : OptionSpec :=
  { name := "format", action := .value fun s => (Format.ofText? s).isSome }

/-- The tool itself. -/
def top : Level where
  options := [helpOption, { name := "version", letter := some 'V', action := .version },
    logLevelOption]
  subcommands := ["tokenize", "duration", "qname", "help"]

/-- The command `tokenize`. Its path must not be empty. -/
def tokenizeLevel : Level where
  options := [helpOption, logLevelOption, formatOption, { name := "no-xqdoc", action := .flag },
    { name := "skip-trivia", action := .flag }]
  positionals := [{ name := "FILE", accepts := fun s => s != "" }]

/-- The command `duration`. A duration may be negative, so that it looks like an option. -/
def durationLevel : Level where
  options := [helpOption, logLevelOption, formatOption,
    { name := "kind", action := .value fun s => (DurationKind.ofText? s).isSome }]
  positionals := [{ name := "LEXICAL", hyphens := true }]

/-- The command `qname`. -/
def qnameLevel : Level where
  options := [helpOption, logLevelOption, formatOption,
    { name := "expand", action := .value fun s => (NameKind.ofText? s).isSome },
    { name := "namespace", action := .values },
    { name := "default-element-namespace", action := .value fun _ => true }]
  positionals := [{ name := "A" }, { name := "B" }]

/-- The form of the report that is asked for. -/
def format (r : Reading) : Format := ((r.value? "format").bind Format.ofText?).getD .text

/-- Read the arguments of a command, of which all positional ones are required. -/
def readCommand (level : Level) (args : List String) : Except UsageError Reading := do
  let (r, _) ← ({} : Reading).all level args
  let r ← r.settle
  if level.positionals.all fun p => r.has p.name then return r else throw .missingArgument

/-- The command `tokenize` with these arguments. -/
def tokenizeCommand (r : Reading) : Command :=
  .tokenize
    { path := (r.value? "FILE").getD "", noDocumentation := r.has "no-xqdoc",
      skipTrivia := r.has "skip-trivia", format := format r }

/-- The command `duration` with these arguments. -/
def durationCommand (r : Reading) : Command :=
  .duration
    { lexical := (r.value? "LEXICAL").getD "",
      kind := ((r.value? "kind").bind DurationKind.ofText?).getD .duration, format := format r }

/-- The command `qname` with these arguments. -/
def qnameCommand (r : Reading) : Command :=
  .qname
    { left := (r.value? "A").getD "", right := (r.value? "B").getD "",
      expand := (r.value? "expand").bind NameKind.ofText?, namespaces := r.values "namespace",
      defaultElementUri := r.value? "default-element-namespace", format := format r }

/-- What `help` shows: the help of the tool or of the subcommand that is named. -/
def helpTopic : List String → UsageError
  | [] => .help
  | [topic] => if top.subcommands.contains topic then .help else .unknownSubcommand
  | _ => .unknownSubcommand

/-- Read the subcommand `name`. -/
def readSubcommand (name : String) (args : List String) :
    Except UsageError (Reading × Command) := do
  match name with
  | "tokenize" => let r ← readCommand tokenizeLevel args; return (r, tokenizeCommand r)
  | "duration" => let r ← readCommand durationLevel args; return (r, durationCommand r)
  | "qname" => let r ← readCommand qnameLevel args; return (r, qnameCommand r)
  | _ => throw (helpTopic args)

/-- Read a command line. A log filter after the subcommand takes the place of one before it. -/
def parse (args : List String) : Except UsageError Invocation := do
  let (r, sub) ← ({} : Reading).all top args
  match sub with
  | some (name, rest) =>
      let (inner, command) ← readSubcommand name rest
      let r ← r.settle
      return { logLevel := (inner.value? "log-level").or (r.value? "log-level"), command }
  | none =>
      let r ← r.settle
      throw (if r.given.isEmpty then .noArguments else .missingSubcommand)

end Invocation

end XQuery
