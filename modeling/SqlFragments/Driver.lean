import SqlFragments.Version

/-!
# Drivers and rendering contexts

A driver says which database a statement is for. Four are known; any other is kept by its name. A
`Context` is what a compilation knows of its connection: the driver and the version of the server,
each if known.
-/

namespace SqlFragments

/-- A kind of database. -/
inductive Driver where
  | mysql
  | postgres
  | sqlite
  | sqlServer
  | other (name : String)
  deriving DecidableEq, Repr, Inhabited

namespace Driver

/-- The name in messages and tables. -/
def name : Driver → String
  | mysql => "mysql"
  | postgres => "pgsql"
  | sqlite => "sqlite"
  | sqlServer => "sqlsrv"
  | other name => name

/-- Whether the driver is one of the four. -/
def isKnown : Driver → Bool
  | other _ => false
  | _ => true

/-- The driver that a name or one of its aliases stands for; case and white space around it do not
count. -/
def ofName (s : String) : Driver :=
  match Text.lower (Text.trim s) with
  | "mysql" | "mariadb" => mysql
  | "pgsql" | "postgres" | "postgresql" => postgres
  | "sqlite" | "sqlite3" => sqlite
  | "sqlsrv" | "sqlserver" | "mssql" => sqlServer
  | name => other name

/-- The place of a driver among the kinds; all drivers known only by name share the last. -/
def rank : Driver → Nat
  | mysql => 0
  | postgres => 1
  | sqlite => 2
  | sqlServer => 3
  | other _ => 4

/-- The four known drivers come first, then the others by name. -/
def compare : Driver → Driver → Ordering
  | other a, other b => Ord.compare a b
  | a, b => Ord.compare a.rank b.rank

instance : Ord Driver := ⟨compare⟩

end Driver

/-- What a compilation knows of its connection. -/
structure Context where
  driver : Option Driver := none
  version : Option Version := none
  deriving DecidableEq, Inhabited

end SqlFragments
