import XQuery.Text.Split

/-!
# Command-line arguments

Reading arguments by a description of the options, positional arguments and subcommands that are
allowed. An option and its value may be two arguments or one, `--name=value`; after `--` every
argument is positional. A value that is an argument of its own is checked when the next option or
positional argument begins, or at the end.
-/

namespace XQuery.Arguments

/-- Why arguments are refused, or what is shown instead of running a command. -/
inductive UsageError where
  /-- A positional argument is missing. -/
  | missingArgument
  /-- A value is missing or not allowed. -/
  | invalidValue
  | unknownArgument
  | unknownSubcommand
  /-- An option that may be given once is given twice. -/
  | repeatedOption
  /-- A value is given to an option that takes none. -/
  | unneededValue
  | missingSubcommand
  /-- Nothing is given at all. -/
  | noArguments
  | help
  | version
deriving DecidableEq, Repr

/-- What an option asks for. -/
inductive Action where
  | help
  | version
  /-- Being given is all that counts. -/
  | flag
  /-- One value, which must be accepted; the option may be given once. -/
  | value (accepts : String → Bool)
  /-- One value each time that the option is given. -/
  | values

/-- An option. -/
structure OptionSpec where
  /-- The name after `--`. -/
  name : String
  /-- The letter after `-`. -/
  letter : Option Char := none
  action : Action

/-- A positional argument. -/
structure Positional where
  name : String
  /-- Whether the argument may look like an option that does not exist. -/
  hyphens : Bool := false
  accepts : String → Bool := fun _ => true

/-- What may be given at one level of a command line. -/
structure Level where
  options : List OptionSpec
  positionals : List Positional := []
  subcommands : List String := []

/-- A value that has still to be checked; none while an option waits for its value. -/
structure Pending where
  name : String
  value : Option String
  accepts : String → Bool
  /-- Whether the name may occur again. -/
  many : Bool

/-- What has been read so far. -/
structure Reading where
  /-- Names and values in the order of the arguments; the value of a flag is empty. -/
  given : List (String × String) := []
  pending : Option Pending := none
  /-- The number of positional arguments. -/
  position : Nat := 0
  /-- Whether `--` has been read. -/
  positionalOnly : Bool := false

namespace Reading

/-- Whether an option waits for its value. -/
def awaiting (r : Reading) : Bool :=
  match r.pending with
  | some p => p.value.isNone && !r.positionalOnly
  | none => false

/-- Whether the name has been given. -/
def has (r : Reading) (name : String) : Bool := r.given.any (·.1 == name)

/-- The values given to a name. -/
def values (r : Reading) (name : String) : List String :=
  (r.given.filter (·.1 == name)).map (·.2)

/-- The first value given to a name. -/
def value? (r : Reading) (name : String) : Option String := (r.values name).head?

/-- Take down a name that may be given once, or several times. -/
def record (r : Reading) (name value : String) (accepts : String → Bool) (many : Bool) :
    Except UsageError Reading :=
  if !many && r.has name then .error .repeatedOption
  else if accepts value then .ok { r with given := r.given ++ [(name, value)] }
  else .error .invalidValue

/-- Check the pending value. -/
def settle (r : Reading) : Except UsageError Reading :=
  match r.pending with
  | none => .ok r
  | some p =>
      match p.value with
      | none => .error .invalidValue
      | some v => { r with pending := none }.record p.name v p.accepts p.many

/-- Begin an option that takes a value, which may be attached to it. -/
def begin (r : Reading) (name : String) (attached : Option String) (accepts : String → Bool)
    (many : Bool) : Except UsageError Reading := do
  let r ← r.settle
  match attached with
  | some v => r.record name v accepts many
  | none => return { r with pending := some { name, value := none, accepts, many } }

/-- Read an option that is given by name or letter. -/
def option (r : Reading) (o : OptionSpec) (attached : Option String) :
    Except UsageError Reading := do
  match o.action, attached with
  | .value accepts, _ => r.begin o.name attached accepts false
  | .values, _ => r.begin o.name attached (fun _ => true) true
  | _, some _ => throw .unneededValue
  | .help, none => let _ ← r.settle; throw .help
  | .version, none => let _ ← r.settle; throw .version
  | .flag, none => (← r.settle).record o.name "" (fun _ => true) false

/-- Read a positional argument. -/
def positional (r : Reading) (level : Level) (s : String) : Except UsageError Reading := do
  match level.positionals[r.position]? with
  | some p =>
      let r ← r.settle
      let pending : Pending :=
        { name := p.name, value := some s, accepts := p.accepts, many := false }
      return { r with pending := some pending, position := r.position + 1 }
  | none =>
      if level.subcommands.isEmpty || (r.positionalOnly && level.subcommands.contains s) then
        throw .unknownArgument
      else throw .unknownSubcommand

/-- Read the value of the option that waits for one, or else a positional argument. -/
def word (r : Reading) (level : Level) (s : String) : Except UsageError Reading :=
  match r.pending with
  | some p =>
      if r.awaiting then .ok { r with pending := some { p with value := some s } }
      else r.positional level s
  | none => r.positional level s

/-- Whether the next positional argument may look like an option that does not exist. -/
def hyphensAllowed (r : Reading) (level : Level) : Bool :=
  match level.positionals[r.position]? with
  | some p => p.hyphens
  | none => false

/-- Read the letters of a group of short options. -/
def letters (r : Reading) (level : Level) : List Char → Except UsageError Reading
  | [] => .ok r
  | c :: cs =>
      match level.options.find? (·.letter == some c) with
      | some o => do (← r.option o none).letters level cs
      | none => .error .unknownArgument

/-- Read one argument that is no subcommand. -/
def argument (r : Reading) (level : Level) (s : String) : Except UsageError Reading :=
  if r.positionalOnly then r.positional level s
  else match s.toList with
    | ['-', '-'] => .ok { r with positionalOnly := true }
    | '-' :: '-' :: cs =>
        let (name, attached) :=
          match Text.splitAtFirst? (· == '=') cs with
          | some (name, value) => (String.ofList name, some (String.ofList value))
          | none => (String.ofList cs, none)
        match level.options.find? (·.name == name) with
        | some o => r.option o attached
        | none => if r.hyphensAllowed level then r.word level s else .error .unknownArgument
    | '-' :: c :: cs =>
        let unknown := (c :: cs).any fun l => !level.options.any (·.letter == some l)
        if r.hyphensAllowed level && unknown then r.word level s else r.letters level (c :: cs)
    | _ => r.word level s

/-- Read arguments up to a subcommand, which is given back with the arguments after it. -/
def all (r : Reading) (level : Level) :
    List String → Except UsageError (Reading × Option (String × List String))
  | [] => .ok (r, none)
  | s :: rest =>
      if !r.positionalOnly && !r.awaiting && level.subcommands.contains s then
        .ok (r, some (s, rest))
      else do (← r.argument level s).all level rest

end Reading

end XQuery.Arguments
