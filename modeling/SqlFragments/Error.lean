import SqlFragments.Driver
import SqlFragments.Text.Quoted

/-!
# Errors

Why an expression has no text or a query no statement. An `Error` holds the cause; `Error.message`
is its wording. A `Fault` is a mistake in how a query, its rows or its assignments were built.
-/

namespace SqlFragments

/-- The drivers of a table in order, each with the versions it has texts for. -/
abbrev Listing := List (Driver × List Version)

/-- `driver[v1, v2]; driver2[v]`, or `(none)`. -/
def Listing.text (listing : Listing) : String :=
  if listing.isEmpty then "(none)"
  else Text.separated "; " (listing.map fun (driver, versions) =>
    driver.name ++ "[" ++ Text.commaList (versions.map Version.text) ++ "]")

/-- The statements that change rows in place. -/
inductive Mutation where
  | update
  | delete
  deriving DecidableEq, Repr

/-- The word that a mutation starts with. -/
def Mutation.word : Mutation → String
  | update => "update"
  | delete => "delete"

/-- What a dialect may lack. -/
inductive Feature where
  | compilation
  | insertOrIgnore
  | upsert
  | jsonUpdate
  | distinctOn
  | joined (mutation : Mutation)
  | paged (mutation : Mutation)
  deriving DecidableEq, Repr

/-- The feature in words. -/
def Feature.text : Feature → String
  | compilation => "query compilation"
  | insertOrIgnore => "insert or ignore"
  | upsert => "upsert"
  | jsonUpdate => "json column update"
  | distinctOn => "distinct on"
  | joined mutation => mutation.word ++ " with joins"
  | paged mutation => mutation.word ++ " with order by / limit"

/-- A mistake in what a statement is built from. -/
inductive Fault where
  | invalidOperator (operator : String)
  | contextWithoutDriver
  | noTable
  | noAssignments
  | rawTruncate
  | jsonKey (key : String)
  | rowWidth (row found expected : Nat)
  | missingColumn (row : Nat) (column : String)
  deriving DecidableEq, Repr

/-- The fault in words. -/
def Fault.text : Fault → String
  | invalidOperator operator => "invalid operator: " ++ operator
  | contextWithoutDriver => "render context has no driver"
  | noTable => "query has no table"
  | noAssignments => "update without values"
  | rawTruncate => "cannot truncate a raw table expression"
  | jsonKey key => "invalid json path key: " ++ Text.quoted key
  | rowWidth row found expected =>
    "insert row " ++ toString row ++ " has " ++ toString found ++ " column(s), expected " ++
      toString expected
  | missingColumn row column => "insert row " ++ toString row ++ " is missing column " ++ column

/-- Why an expression has no text or a query no statement. -/
inductive Error where
  | driverUndefined (driver : Driver) (registered : Listing)
  | versionUndefined (driver : Driver) (version : Version) (registered : Listing)
  | driverUnset (registered : Listing)
  | placeholderMismatch (placeholders bindings : Nat) (sql : String)
  | unsupported (driver : Driver) (feature : Feature)
  | invalid (fault : Fault)
  deriving DecidableEq

namespace Error

/-- Whether the error is that a table has no text for its context. -/
def isGrammar : Error → Bool
  | driverUndefined _ _ | versionUndefined _ _ _ | driverUnset _ => true
  | _ => false

/-- The error in words. -/
def message : Error → String
  | driverUndefined driver registered =>
    "Grammar not defined for database driver " ++ driver.name ++ "\nregistered: " ++ registered.text
  | versionUndefined driver version registered =>
    "Grammar not defined for database version " ++ version.text ++ " of driver " ++ driver.name ++
      "\nregistered: " ++ registered.text
  | driverUnset registered =>
    "Grammar resolved without a database driver (driver null)\nregistered: " ++ registered.text
  | placeholderMismatch placeholders bindings sql =>
    "Placeholder mismatch: " ++ toString placeholders ++ " placeholder(s) but " ++
      toString bindings ++ " binding(s) in `" ++ sql ++ "`"
  | unsupported driver feature =>
    feature.text ++ " is not supported by the " ++ driver.name ++ " dialect"
  | invalid fault => "Validation error: " ++ fault.text

end Error

end SqlFragments
