import XQuery.Command.Run

/-!
# The command line

Reads the file that the command asks for, runs the command and writes what it answers.
-/

namespace XQuery

/-- The text of the bytes of a file. -/
def decodeFile (bytes : ByteArray) : Except ReadError String :=
  match String.fromUTF8? bytes with
  | some s => .ok s
  | none => .error .notUtf8

/-- Read a file, where `-` stands for the standard input. -/
def readSource (path : String) : IO (Except ReadError String) := do
  try
    if path == "-" then return decodeFile (← (← IO.getStdin).readBinToEnd)
    else return decodeFile (← IO.FS.readBinFile path)
  catch e =>
    match e with
    | .noFileOrDirectory .. => return .error .notFound
    | .inappropriateType .. => return .error .isDirectory
    | e => return .error (.other (toString e))

/-- The variable of the environment that holds a log filter. -/
def filterVariable : String := "RUST_LOG"

end XQuery

open XQuery in
/-- Run the tool on the arguments of the process. -/
def main (args : List String) : IO UInt32 := do
  let path? : Option String :=
    match Invocation.parse args with
    | .ok invocation => invocation.command.path?
    | .error _ => none
  let source ← match path? with
    | some path => readSource path
    | none => pure (.error .notFound)
  let outcome := Outcome.run (fun _ => source) (← IO.getEnv filterVariable) args
  (← IO.getStdout).putStr outcome.output
  (← IO.getStderr).putStr outcome.errors
  return outcome.exitCode.toUInt32
