import SqlFragments.Checkup
import SqlFragments.Cli.Config
import SqlFragments.Cli.Directory
import SqlFragments.Cli.Options

/-!
# The command line program

`Cli.run` is what the program does with its arguments, given the files and the environment: what it
prints and how it ends. The connection to check comes from the options first, then from the
configuration file, then from the environment.
-/

namespace SqlFragments.Cli

/-- Where the program runs. -/
structure Surroundings where
  file : String → FileState
  env : Environment

/-- Why the program fails. -/
inductive Failure where
  | usage (e : UsageError)
  | unreadableConfig (path : String)
  | badConfig (path : String) (e : ConfigError)
  | noConnection (config : String)
  | checksFailed (count : Nat)
  deriving DecidableEq, Repr

/-- The failure in words. -/
def Failure.message : Failure → String
  | usage e => e.message
  | unreadableConfig path => "failed to read config file " ++ path
  | badConfig path e => "failed to load config file " ++ path ++ ": " ++ e.message
  | noConnection config =>
    "no connection configured; pass --driver or --database, or set database.driver in " ++ config
  | checksFailed count => "doctor: " ++ toString count ++ " check(s) failed"

/-- The connection to check: a database to ask, or one that is described. -/
inductive Target where
  | database (url : String)
  | described (driver : String) (version : Option String)
  deriving DecidableEq, Repr

/-- How the program ends. -/
inductive Ending where
  | success
  | failure (f : Failure)
  | connects (url : String)
  deriving DecidableEq, Repr

/-- What the program prints, and how it ends. -/
structure Result where
  output : String
  ending : Ending
  deriving DecidableEq, Repr

/-- The connection to check. A url of the file counts unless the options name a driver. -/
def target (o : Options) (c : Config) (env : Environment) : Except Failure Target :=
  match o.database, o.driver.or c.driver with
  | some url, _ => .ok (.database url)
  | none, some driver =>
    match o.driver, c.url with
    | none, some url => .ok (.database url)
    | _, _ => .ok (.described driver (o.serverVersion.or c.serverVersion))
  | none, none =>
    match c.url.or (env "DATABASE_URL") with
    | some url => .ok (.database url)
    | none => .error (.noConnection o.config)

/-- The configuration at a path; without a file the empty one. -/
def loadConfig (s : Surroundings) (path : String) : Except Failure Config :=
  match s.file path with
  | .missing => .ok {}
  | .unreadable => .error (.unreadableConfig path)
  | .text content =>
    match Config.parse s.env content with
    | .ok c => .ok c
    | .error e => .error (.badConfig path e)

/-- The mark of an outcome. -/
def mark : Outcome → String
  | .passed => "✓"
  | .failed => "✗"
  | .ignored => "-"

/-- A text padded with spaces on the right. -/
def padded (width : Nat) (s : String) : String :=
  s ++ String.ofList (List.replicate (width - s.length) ' ')

/-- The report as people read it. -/
def reportText (r : Report) : String :=
  "driver " ++ r.driver ++ " (server version " ++ r.version.getD "unknown" ++ ")\n" ++
    String.join (r.checks.map fun check =>
      "  " ++ mark check.outcome ++ " " ++ padded 15 check.name ++ " " ++ check.message ++ "\n") ++
    if r.success then "all checks passed\n" else ""

/-- The check as JSON, set in by four spaces. -/
def checkJson (check : Check) : String :=
  "    \x7b\n" ++
  "      \"name\": " ++ Text.jsonString check.name ++ ",\n" ++
  "      \"outcome\": " ++ Text.jsonString check.outcome.name ++ ",\n" ++
  "      \"message\": " ++ Text.jsonString check.message ++ "\n" ++
  "    \x7d"

/-- The report as JSON. -/
def reportJson (r : Report) : String :=
  let version := match r.version with
    | some v => Text.jsonString v
    | none => "null"
  "\x7b\n" ++
  "  \"driver\": " ++ Text.jsonString r.driver ++ ",\n" ++
  "  \"server_version\": " ++ version ++ ",\n" ++
  "  \"checks\": [\n" ++ Text.separated ",\n" (r.checks.map checkJson) ++ "\n  ]\n" ++
  "\x7d\n"

/-- Checks a connection and prints the report. -/
def report (json : Bool) (c : Connection) : Result :=
  let r := c.checkup
  ⟨if json then reportJson r else reportText r,
    if r.success then .success else .failure (.checksFailed r.failures.length)⟩

/-- Finds the connection to check. -/
def findTarget (s : Surroundings) (o : Options) : Except Failure Target := do
  let c ← loadConfig s o.config
  target o c s.env

/-- Runs the program. -/
def run (s : Surroundings) (arguments : List String) : Result :=
  match Command.parse arguments with
  | .error e => ⟨"", .failure (.usage e)⟩
  | .ok (.help topic) => ⟨topic.text, .success⟩
  | .ok (.doctor o) =>
    match findTarget s o with
    | .error f => ⟨"", .failure f⟩
    | .ok (.database url) => ⟨"", .connects url⟩
    | .ok (.described driver version) =>
      report o.json (.ofDriver (.ofName driver) (version.map Version.ofText))

end SqlFragments.Cli
