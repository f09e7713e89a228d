import SqlFragments.Cli.Expansion
import SqlFragments.Driver
import SqlFragments.Toml.Document

/-!
# The configuration file

The file says which database to check: its table `database` may hold a `url`, a `driver` and a
`server_version`, each a text in which environment variables are expanded. Other keys do not count.
-/

namespace SqlFragments.Cli

/-- The settings of a configuration file. -/
structure Config where
  url : Option String := none
  driver : Option String := none
  serverVersion : Option String := none
  deriving DecidableEq, Repr

/-- Why a file is no configuration. -/
inductive ConfigError where
  | malformed
  | keyTooLong
  | expansion (e : ExpansionError)
  | emptyUrl
  | emptyDriver
  | urlWithDriver (driver : String)
  deriving DecidableEq, Repr

/-- The error in words. -/
def ConfigError.message : ConfigError → String
  | malformed => "TOML parse error"
  | keyTooLong => "recursion limit\n"
  | expansion e => e.message
  | emptyUrl => "database.url must not be empty"
  | emptyDriver => "database.driver must not be empty"
  | urlWithDriver driver => "database.url requires the pgsql driver, got " ++ driver

namespace Config

/-- A setting, which has to be a text where it is given. -/
def setting : Option Toml.Node → Except ConfigError (Option String)
  | none => .ok none
  | some (.text s) => .ok (some s)
  | some _ => .error .malformed

/-- The settings of a database; as a list they come in the order url, driver, version, and nobody
asks for what follows. A date in place of the table holds none of them. -/
def ofDatabase : Toml.Node → Except ConfigError Config
  | .table _ database => do
    let url ← setting (database.lookup "url")
    let driver ← setting (database.lookup "driver")
    let serverVersion ← setting (database.lookup "server_version")
    if Toml.usableEntries database then return ⟨url, driver, serverVersion⟩
    else .error .malformed
  | .moment => .ok {}
  | .list _ (.text url :: .text driver :: .text version :: _) =>
    .ok ⟨some url, some driver, some version⟩
  | _ => .error .malformed

/-- The settings of the document. What is no setting has to be usable all the same. -/
def ofEntries (entries : Toml.Entries) : Except ConfigError Config :=
  let others := entries.filter fun (key, _) => key != "database"
  if Toml.usableEntries others then
    match entries.lookup "database" with
    | none => .ok {}
    | some database => ofDatabase database
  else .error .malformed

/-- A setting with its environment variables expanded. -/
def expandSetting (env : Environment) : Option String → Except ConfigError (Option String)
  | none => .ok none
  | some s =>
    match expand env s with
    | .ok s => .ok (some s)
    | .error e => .error (.expansion e)

/-- Whether a setting is given and holds nothing but white space. -/
def isBlankSetting : Option String → Bool
  | none => false
  | some s => (Text.trim s).isEmpty

/-- Refuses settings that are empty, and a url together with a driver that cannot use it. -/
def validate (c : Config) : Except ConfigError Config :=
  if isBlankSetting c.url then .error .emptyUrl
  else if isBlankSetting c.driver then .error .emptyDriver
  else
    match c.url, c.driver with
    | some _, some driver =>
      if Driver.ofName driver = .postgres then .ok c else .error (.urlWithDriver driver)
    | _, _ => .ok c

/-- Reads a configuration file. -/
def parse (env : Environment) (s : String) : Except ConfigError Config :=
  match Toml.read s with
  | .error .malformed => .error .malformed
  | .error .keyTooLong => .error .keyTooLong
  | .ok entries => do
    let c ← ofEntries entries
    let url ← expandSetting env c.url
    let driver ← expandSetting env c.driver
    let serverVersion ← expandSetting env c.serverVersion
    validate ⟨url, driver, serverVersion⟩

end Config

end SqlFragments.Cli
