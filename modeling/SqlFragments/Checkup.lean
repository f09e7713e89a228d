import SqlFragments.Compilation

/-!
# Checking a connection

A checkup tells whether expressions compile for a connection, without asking the database anything:
whether its driver has a dialect, whether its version is known, whether a table with a text for
every driver resolves to the text of this one, and whether an expression with bindings compiles. It
succeeds when no check fails.
-/

namespace SqlFragments

/-- What is known of a connection: its driver, the version of its server, and the context that it
compiles in. -/
structure Connection where
  driver : Driver
  version : Option Version
  context : Context

/-- A connection that compiles in the context of its own driver and version. -/
def Connection.ofDriver (driver : Driver) (version : Option Version := none) : Connection :=
  ⟨driver, version, ⟨some driver, version⟩⟩

/-- What a check came to. -/
inductive Outcome where
  | passed
  | failed
  | ignored
  deriving DecidableEq, Repr

/-- The outcome in words. -/
def Outcome.name : Outcome → String
  | passed => "passed"
  | failed => "failed"
  | ignored => "ignored"

/-- One check. -/
structure Check where
  name : String
  outcome : Outcome
  message : String
  deriving DecidableEq, Repr

/-- The checks of a connection. -/
structure Report where
  driver : String
  version : Option String
  checks : List Check
  deriving DecidableEq, Repr

namespace Report

/-- The checks that failed. -/
def failures (r : Report) : List Check :=
  r.checks.filter fun check => check.outcome == .failed

/-- Whether no check failed. -/
def success (r : Report) : Bool :=
  r.checks.all fun check => check.outcome != .failed

end Report

namespace Connection

/-- Whether the driver has a dialect. -/
def checkDialect (c : Connection) : Check :=
  match Dialect.ofDriver c.driver with
  | .ok d => ⟨"dialect", .passed, d.driver.name ++ " dialect available"⟩
  | .error e => ⟨"dialect", .failed, e.message⟩

/-- Whether the version of the server is known. -/
def checkVersion (c : Connection) : Check :=
  match c.version with
  | some v => ⟨"server_version", .passed, "server version " ++ v.text⟩
  | none =>
    ⟨"server_version", .ignored,
      "server version unknown; versioned grammar fragments resolve as version 0"⟩

/-- A table whose texts name their drivers. -/
def marker : Grammar :=
  Grammar.register (Grammar.register (Grammar.register (Grammar.register {} .mysql "'mysql'")
    .postgres "'pgsql'") .sqlite "'sqlite'") .sqlServer "'sqlsrv'"

/-- Whether a table resolves to the text of the connection's driver. -/
def checkGrammar (c : Connection) : Check :=
  match (marker.resolveIn c.context).1 with
  | .error e => ⟨"grammar", .failed, e.message⟩
  | .ok text =>
    if Text.contains text c.driver.name then ⟨"grammar", .passed, "resolved " ++ text⟩
    else ⟨"grammar", .failed, "resolved " ++ text ++ " for driver " ++ c.driver.name⟩

/-- A table of a choice between two bound prices. -/
def priceChoice : Grammar :=
  let choice := "CASE WHEN state = 'TX' THEN ? ELSE ? END"
  Grammar.register (Grammar.register (Grammar.register (Grammar.register {} .mysql
    "IF(state = 'TX', ?, ?)") .postgres choice) .sqlite choice) .sqlServer choice

/-- The two prices. -/
def prices : List Value := [.int 200, .int 100]

/-- A query on products whose price is above the choice. -/
def priceQuery : StateM Workspace Query := do
  let price ← Expression.ofGrammar priceChoice (prices.map Binding.literal)
  return (Query.onTable (.name "products")).whereValue .and (.name "price") ">"
    (.ofExpression price)

/-- Whether an expression with bindings compiles, each binding at its placeholder. -/
def checkBindings (c : Connection) : Check :=
  match Compiler.forContext c.context with
  | .error e => ⟨"bindings", .failed, e.message⟩
  | .ok compiler =>
    match (priceQuery >>= compiler.select).run {} |>.1.answer with
    | .error e => ⟨"bindings", .failed, e.message⟩
    | .ok s =>
      if s.bindings = prices then ⟨"bindings", .passed, s.sql⟩
      else
        let found := Text.commaList (s.bindings.map Value.dump)
        ⟨"bindings", .failed, "unexpected bindings [" ++ found ++ "] for `" ++ s.sql ++ "`"⟩

/-- Checks a connection. -/
def checkup (c : Connection) : Report :=
  ⟨c.driver.name, c.version.map Version.text,
    [c.checkDialect, c.checkVersion, c.checkGrammar, c.checkBindings]⟩

end Connection

end SqlFragments
