import XQuery.Command.Invocation
import XQuery.Command.LogFilter
import XQuery.Report.Comparison
import XQuery.Report.Duration
import XQuery.Report.Tokens

/-!
# Running commands

What a command answers, given what the files hold, and what the whole tool writes and which exit
code it ends with.
-/

namespace XQuery

/-- Why a file cannot be read as text. -/
inductive ReadError where
  | notFound
  | isDirectory
  | notUtf8
  | other (message : String)
deriving DecidableEq

/-- What the error says. -/
def ReadError.message : ReadError → String
  | notFound => "No such file or directory (os error 2)"
  | isDirectory => "Is a directory (os error 21)"
  | notUtf8 => "stream did not contain valid UTF-8"
  | other message => message

/-- Why a command fails. -/
inductive Failure where
  | fault (f : Fault)
  | cannotRead (path : String) (error : ReadError)
  | bindingWithoutUri (binding : String)
  | invalidPrefix (pre : String)
deriving DecidableEq

/-- What the failure says. -/
def Failure.message : Failure → String
  | fault f => f.toError.text
  | cannotRead path error =>
      if path = "-" then error.message else "cannot read " ++ path ++ ": " ++ error.message
  | bindingWithoutUri binding => "namespace binding must be prefix=uri: " ++ binding
  | invalidPrefix pre => "invalid namespace prefix: " ++ pre

namespace Command

/-- Read a binding, which is a prefix and a URI with the first `=` between them. -/
def parseBinding (s : String) : Except Failure (String × String) :=
  match Text.splitAtFirst? (· == '=') s.toList with
  | none => .error (.bindingWithoutUri s)
  | some (pre, uri) =>
      if isNCName pre then .ok (String.ofList pre, String.ofList uri)
      else .error (.invalidPrefix (String.ofList pre))

/-- The context in which `qname` expands names. -/
def nameContext (o : QNameOptions) : Except Failure Context := do
  let bindings ← o.namespaces.mapM parseBinding
  let c := bindings.foldl (fun c (pre, uri) => c.withNamespace pre uri) ({} : Context)
  return match o.defaultElementUri with
    | some uri => c.withDefaultElementUri uri
    | none => c

/-- The comparison that `qname` reports. -/
def comparison (o : QNameOptions) : Except Failure Comparison := do
  let left ← (QName.parse o.left).mapError .fault
  let right ← (QName.parse o.right).mapError .fault
  match o.expand with
  | none => return { leftText := o.left, left, rightText := o.right, right, expanded := false }
  | some kind =>
      let context ← nameContext o
      let left ← (left.expand context kind).mapError .fault
      let right ← (right.expand context kind).mapError .fault
      return { leftText := o.left, left, rightText := o.right, right, expanded := true }

/-- What the command answers; `read` gives the text of a file. -/
def execute (read : String → Except ReadError String) (colors : Bool) :
    Command → Except Failure String
  | .tokenize o => do
      let source ← (read o.path).mapError (.cannotRead o.path)
      let entries := XQuery.tokenize source (!o.noDocumentation) o.skipTrivia
      return match o.format with
        | .text => tokenListing colors entries
        | .json => tokenJson entries
  | .duration o => do
      let d ← (Duration.parse o.lexical o.kind).mapError .fault
      return match o.format with
        | .text => d.report colors
        | .json => d.reportJson o.lexical
  | .qname o => do
      let c ← comparison o
      return match o.format with
        | .text => c.report colors
        | .json => c.reportJson

/-- The file that the command reads. -/
def path? : Command → Option String
  | .tokenize o => some o.path
  | _ => none

end Command

/-- How the tool ends. -/
structure Outcome where
  exitCode : Nat
  output : String := ""
  /-- What is written to the error output. -/
  errors : String := ""
deriving DecidableEq

namespace Outcome

/-- What `--version` shows. -/
def versionText : String := "xqkit 0.1.0\n"

/-- What `--help` shows. -/
def helpText : String :=
  "Inspect XPath/XQuery tokens, durations and QNames\n\n" ++
  "Usage: xqkit [--log-level <FILTER>] <COMMAND>\n\n" ++
  "Commands:\n" ++
  "  tokenize [--no-xqdoc] [--skip-trivia] [--format text|json] <FILE>\n" ++
  "  duration [--kind duration|year-month|day-time] [--format text|json] <LEXICAL>\n" ++
  "  qname [--expand element|type|function|attribute|variable] [--namespace <PREFIX=URI>]\n" ++
  "        [--default-element-namespace <URI>] [--format text|json] <A> <B>\n" ++
  "  help [COMMAND]\n"

/-- How the tool ends on arguments that it does not run: asked for, help and version are answers;
everything else is an error in usage. -/
def ofUsage : Arguments.UsageError → Outcome
  | .help => { exitCode := 0, output := helpText }
  | .version => { exitCode := 0, output := versionText }
  | _ => { exitCode := 2, errors := helpText }

/-- How the tool ends after a command. An answer is followed by a line break, unless it is empty. -/
def ofAnswer : Except Failure String → Outcome
  | .ok answer => { exitCode := 0, output := if answer = "" then "" else answer ++ "\n" }
  | .error f => { exitCode := 1, errors := f.message ++ "\n" }

/-- How the tool ends on a log filter with this fault. -/
def ofFilterFault : LogFilter.Fault → Outcome
  | .malformed => { exitCode := 1, errors := "invalid filter directive\n" }
  | .insideCharacter =>
      { exitCode := 101, errors := "a filter directive is cut inside a character\n" }

/-- Check the log filter before a command. The one of the command line is taken where it is given;
one of the environment that is malformed counts as none. -/
def checkFilters (logLevel environment : Option String) : Except LogFilter.Fault Unit :=
  match logLevel, environment with
  | some filter, _ => LogFilter.checkFilter filter
  | none, some filter =>
      match LogFilter.checkFilter filter with
      | .error .insideCharacter => .error .insideCharacter
      | _ => .ok ()
  | none, none => .ok ()

/-- Run the tool, where `environment` is the log filter of the environment. A fault in a log filter
ends it before the command runs. -/
def run (read : String → Except ReadError String) (environment : Option String)
    (args : List String) : Outcome :=
  match Invocation.parse args with
  | .error e => ofUsage e
  | .ok invocation =>
      match checkFilters invocation.logLevel environment with
      | .error fault => ofFilterFault fault
      | .ok () => ofAnswer (invocation.command.execute read false)

end Outcome

end XQuery
