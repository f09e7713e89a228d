import SqlFragments.Text.Pieces

/-!
# Command line options

`Command.parse` reads the arguments after the program's name. An option that takes a value has it in
the next argument or after an equals sign; the last setting of an option counts.
-/

namespace SqlFragments.Cli

/-- What help is asked for. -/
inductive Topic where
  | program
  | doctor
  deriving DecidableEq, Repr

/-- The options that take a value. -/
inductive Flag where
  | config
  | database
  | driver
  | serverVersion
  deriving DecidableEq, Repr

/-- The option as it is written. -/
def Flag.name : Flag → String
  | config => "--config"
  | database => "--database"
  | driver => "--driver"
  | serverVersion => "--server-version"

/-- All options that take a value. -/
def Flag.all : List Flag := [.config, .database, .driver, .serverVersion]

/-- The options of a checkup. -/
structure Options where
  config : String := "sqlexpr.toml"
  database : Option String := none
  driver : Option String := none
  serverVersion : Option String := none
  json : Bool := false
  deriving DecidableEq, Repr

/-- Sets an option to a value. -/
def Options.set (o : Options) (flag : Flag) (value : String) : Options :=
  match flag with
  | .config => { o with config := value }
  | .database => { o with database := some value }
  | .driver => { o with driver := some value }
  | .serverVersion => { o with serverVersion := some value }

/-- What the program is asked to do. -/
inductive Command where
  | help (topic : Topic)
  | doctor (options : Options)
  deriving DecidableEq, Repr

/-- Why arguments are not understood. -/
inductive UsageError where
  | unknownCommand (name : String)
  | unknownArgument (argument : String)
  | missingValue (flag : Flag)
  deriving DecidableEq, Repr

/-- The error in words. -/
def UsageError.message : UsageError → String
  | unknownCommand name => "unknown command: " ++ name
  | unknownArgument argument => "unknown argument: " ++ argument
  | missingValue flag => flag.name ++ " requires a value"

/-- The text without `word` at its start, however often it stands there; the steps count down the
characters. -/
def dropRepeated (word : List Char) : Nat → List Char → List Char
  | 0, cs => cs
  | steps + 1, cs =>
    match Text.after? word cs with
    | some rest => dropRepeated word steps rest
    | none => cs

/-- The value in an argument of the form `--option=value`. An option that is repeated in its own
value is left out of it. -/
def joinedValue? (flag : Flag) (argument : String) : Option String :=
  let word := flag.name.toList ++ ['=']
  (Text.after? word argument.toList).map fun rest =>
    String.ofList (dropRepeated word rest.length rest)

/-- The option and its value in one argument. -/
def joined? (argument : String) : Option (Flag × String) :=
  Flag.all.findSome? fun flag => (joinedValue? flag argument).map fun value => (flag, value)

/-- Reads the options of a checkup, after those that were read. Asking for help ends the reading. -/
def Options.parse (o : Options) : List String → Except UsageError Command
  | [] => .ok (.doctor o)
  | argument :: rest =>
    if argument = "-h" ∨ argument = "--help" then .ok (.help .doctor)
    else if argument = "--json" then parse { o with json := true } rest
    else
      match Flag.all.find? (·.name = argument) with
      | some flag =>
        match rest with
        | [] => .error (.missingValue flag)
        | value :: rest => parse (o.set flag value) rest
      | none =>
        match joined? argument with
        | some (flag, value) => parse (o.set flag value) rest
        | none => .error (.unknownArgument argument)

/-- Reads the arguments of the program. -/
def Command.parse : List String → Except UsageError Command
  | [] => .ok (.help .program)
  | first :: rest =>
    if first = "-h" ∨ first = "--help" then .ok (.help .program)
    else if first = "doctor" then Options.parse {} rest
    else .error (.unknownCommand first)

/-- The help on a topic. -/
def Topic.text : Topic → String
  | program =>
    "sqlexpr - diagnostics for sqlexpr expressions\n" ++
    "\n" ++
    "USAGE:\n" ++
    "  sqlexpr <COMMAND> [OPTIONS]\n" ++
    "\n" ++
    "COMMANDS:\n" ++
    "  doctor        Check that expressions resolve and compile for a connection\n" ++
    "\n" ++
    "Run `sqlexpr <command> --help` for more.\n"
  | doctor =>
    "USAGE:\n" ++
    "  sqlexpr doctor [OPTIONS]\n" ++
    "\n" ++
    "OPTIONS:\n" ++
    "  --config <FILE>             Config file path (default: sqlexpr.toml)\n" ++
    "  --database <URL>            Connect to Postgres and read its server version\n" ++
    "  --driver <NAME>             Driver without connecting (mysql, pgsql, sqlite, sqlsrv)\n" ++
    "  --server-version <VERSION>  Server version to assume with --driver\n" ++
    "  --json                      Print the report as JSON\n" ++
    "  -h, --help                  Print help\n" ++
    "\n" ++
    "The command exits non-zero when any check fails.\n"

end SqlFragments.Cli
