import SqlFragments.Error

/-!
# Grammar tables

A `Grammar` holds the texts of one logical expression, by driver and by the version from which each
text is valid. It is resolved for a driver and a version: `Grammar.pick` takes the text of the
greatest version that is not above the given one. The table may carry a driver and a version of its
own, which stand in where the context names none.

`Grammar.resolveWith` remembers what it found, by driver and version. Registering a text forgets
what is remembered for its driver, so what is remembered is always what `pick` would find.
-/

namespace SqlFragments

/-- The pairs with the value of a key replaced or inserted at the key's place, in ascending order.
-/
def insertOrdered {κ ν : Type} [Ord κ] (key : κ) (value : ν) : List (κ × ν) → List (κ × ν)
  | [] => [(key, value)]
  | (k, v) :: rest =>
    match compare key k with
    | .lt => (key, value) :: (k, v) :: rest
    | .eq => (key, value) :: rest
    | .gt => (k, v) :: insertOrdered key value rest

/-- A table of texts by driver and version, both ascending. -/
structure Grammar where
  fragments : List (Driver × List (Version × String)) := []
  driver : Option Driver := none
  version : Option Version := none
  resolved : List ((Driver × Version) × String) := []
  deriving DecidableEq, Inhabited

namespace Grammar

/-- The texts of a driver, if it has any. -/
def versions? (g : Grammar) (driver : Driver) : Option (List (Version × String)) :=
  g.fragments.lookup driver

/-- Sets the text of a driver from a version on, and forgets what was found for that driver. -/
def register (g : Grammar) (driver : Driver) (text : String) (version : Version := .zero) :
    Grammar :=
  let versions := insertOrdered version text ((g.versions? driver).getD [])
  { g with
    fragments := insertOrdered driver versions g.fragments
    resolved := g.resolved.filter fun entry => entry.1.1 != driver }

/-- Sets the table's own driver. -/
def setDriver (g : Grammar) (driver : Driver) : Grammar :=
  { g with driver := some driver }

/-- Sets the table's own version. -/
def setVersion (g : Grammar) (version : Version) : Grammar :=
  { g with version := some version }

/-- The drivers with a text, in order. -/
def drivers (g : Grammar) : List Driver :=
  g.fragments.map (·.1)

/-- Whether the driver has a text. -/
def supports (g : Grammar) (driver : Driver) : Bool :=
  (g.versions? driver).isSome

/-- The drivers and versions of the table. -/
def listing (g : Grammar) : Listing :=
  g.fragments.map fun (driver, versions) => (driver, versions.map (·.1))

/-- How many results are remembered for a driver. -/
def rememberedCount (g : Grammar) (driver : Driver) : Nat :=
  (g.resolved.filter fun entry => entry.1.1 == driver).length

/-- Walks the versions upward and keeps the last text whose version is not above the given one. -/
def newest (version : Version) (found : Option String) : List (Version × String) → Option String
  | [] => found
  | (v, text) :: rest =>
    match compare v version with
    | .gt => found
    | _ => newest version (some text) rest

/-- The text for a driver and a version, found without what is remembered. -/
def pick (g : Grammar) (driver : Driver) (version : Version) : Except Error String :=
  match g.versions? driver with
  | none => .error (.driverUndefined driver g.listing)
  | some versions =>
    match newest version none versions with
    | some text => .ok text
    | none => .error (.versionUndefined driver version g.listing)

/-- Remembers a text for a driver and a version. -/
def remember (g : Grammar) (driver : Driver) (version : Version) (text : String) : Grammar :=
  { g with resolved := ((driver, version), text) :: g.resolved }

/-- Resolves for a driver and a version. A remembered text is taken as it is; a text that had to be
found is remembered; an error is not. -/
def resolveAt (g : Grammar) (driver : Driver) (version : Version) : Except Error String × Grammar :=
  if g.supports driver then
    match g.resolved.lookup (driver, version) with
    | some text => (.ok text, g)
    | none =>
      match g.pick driver version with
      | .ok text => (.ok text, g.remember driver version text)
      | .error e => (.error e, g)
  else (g.pick driver version, g)

/-- Resolves for a driver and a version that may be missing: then the table's own stand in, and the
version zero after them. -/
def resolveWith (g : Grammar) (driver : Option Driver) (version : Option Version) :
    Except Error String × Grammar :=
  match driver.or g.driver with
  | none => (.error (.driverUnset g.listing), g)
  | some driver => g.resolveAt driver ((version.or g.version).getD .zero)

/-- Resolves for the table's own driver and version. -/
def resolve (g : Grammar) : Except Error String × Grammar :=
  g.resolveWith none none

/-- Resolves for a driver. -/
def resolveFor (g : Grammar) (driver : Driver) (version : Option Version := none) :
    Except Error String × Grammar :=
  g.resolveWith (some driver) version

/-- Resolves for a context. -/
def resolveIn (g : Grammar) (ctx : Context) : Except Error String × Grammar :=
  g.resolveWith ctx.driver ctx.version

end Grammar

/-- The kind of a driver in a dump. -/
def Driver.dump : Driver → String
  | mysql => "MySql"
  | postgres => "Postgres"
  | sqlite => "Sqlite"
  | sqlServer => "SqlServer"
  | other name => "Other(" ++ Text.quoted name ++ ")"

/-- The parts of a version in a dump. -/
def Version.dump (v : Version) : String :=
  "Version \x7b parts: [" ++ Text.commaList (v.parts.map fun p => toString p.toNat) ++ "] \x7d"

/-- A value that may be missing in a dump. -/
def dumpOption (dump : α → String) : Option α → String
  | none => "None"
  | some a => "Some(" ++ dump a ++ ")"

/-- The table's texts, driver and version; what it remembers is not shown. -/
def Grammar.dump (g : Grammar) : String :=
  let versions (vs : List (Version × String)) : String :=
    Text.commaList (vs.map fun (v, text) => v.dump ++ ": " ++ Text.quoted text)
  let fragments := Text.commaList (g.fragments.map fun (driver, vs) =>
    driver.dump ++ ": \x7b" ++ versions vs ++ "\x7d")
  "Grammar \x7b fragments: \x7b" ++ fragments ++ "\x7d, driver: " ++
    dumpOption Driver.dump g.driver ++
    ", version: " ++ dumpOption Version.dump g.version ++ " \x7d"

end SqlFragments
