/-!
# Settings trees

What a TOML document says: tables of keys, with texts, lists and other values. A table may be named
by several lines, but only in some ways: `Entries.open` is the header of a table, `Entries.append`
puts one more table into a list, and `Entries.assign` a key with its value. Each refuses what would
define something twice.
-/

namespace SqlFragments.Toml

/-- How a table came to be: by a header of its own, on the way to another table, by a key with
points, or written in one place. -/
inductive Shape where
  | headed
  | passed
  | dotted
  | inline
  deriving DecidableEq, Repr

/-- Whether a key with points may go through a table, or end in it. It may end only in a table that
such keys made. -/
def Shape.takesPoints (shape : Shape) (atEnd : Bool) : Bool :=
  match shape with
  | .dotted => true
  | .passed => !atEnd
  | .headed | .inline => false

/-- A value of a document. A date or a time is a `moment`, and a number may be one that does not
fit. -/
inductive Node where
  | text (s : String)
  | moment
  | truth
  | number (fits : Bool)
  | list (ofTables : Bool) (items : List Node)
  | table (shape : Shape) (entries : List (String × Node))

mutual

/-- Whether a value can be used as a whole: every number in it fits. -/
def Node.usable : Node → Bool
  | .number fits => fits
  | .list _ items => usableItems items
  | .table _ entries => usableEntries entries
  | _ => true

/-- Whether every one of these values can be used. -/
def usableItems : List Node → Bool
  | [] => true
  | node :: rest => node.usable && usableItems rest

/-- Whether every value of these keys can be used. -/
def usableEntries : List (String × Node) → Bool
  | [] => true
  | (_, node) :: rest => node.usable && usableEntries rest

end

/-- The keys of a table with their values. -/
abbrev Entries := List (String × Node)

namespace Entries

/-- Changes the value of a key; `f` gets the value, if there is one, and gives the new one. -/
def change (key : String) (f : Option Node → Option Node) : Entries → Option Entries
  | [] => (f none).map fun node => [(key, node)]
  | (k, node) :: rest =>
    if k = key then (f (some node)).map fun node => (k, node) :: rest
    else (change key f rest).map fun rest => (k, node) :: rest

/-- Changes the last of a list's items. -/
def changeLast (f : Node → Option Node) : List Node → Option (List Node)
  | [] => none
  | [node] => (f node).map fun node => [node]
  | node :: next :: rest => (changeLast f (next :: rest)).map fun items => node :: items

/-- Goes down a path and changes the table at its end. Missing tables are made; a list of tables is
entered at its last, in which a key with points does not end. -/
def descend (dotted : Bool) (f : Entries → Option Entries) : List String → Entries → Option Entries
  | [], entries => f entries
  | key :: path, entries => entries.change key fun
    | none => (descend dotted f path []).map (.table (if dotted then .dotted else .passed))
    | some (.table .inline _) => none
    | some (.table shape inner) =>
      if dotted && !shape.takesPoints path.isEmpty then none
      else (descend dotted f path inner).map (.table shape)
    | some (.list true items) =>
      if dotted && path.isEmpty then none
      else (changeLast (fun
        | .table shape inner => (descend dotted f path inner).map (.table shape)
        | _ => none) items).map (.list true)
    | some _ => none

/-- Goes down a path of tables that are there. -/
def within (f : Entries → Option Entries) : List String → Entries → Option Entries
  | [], entries => f entries
  | key :: path, entries => entries.change key fun
    | some (.table shape inner) => (within f path inner).map (.table shape)
    | some (.list true items) => (changeLast (fun
        | .table shape inner => (within f path inner).map (.table shape)
        | _ => none) items).map (.list true)
    | _ => none

/-- The header of a table. A table that was only passed may get one. -/
def «open» (path : List String) (key : String) (entries : Entries) : Option Entries :=
  entries.descend false (fun inner => inner.change key fun
    | none => some (.table .headed [])
    | some (.table .passed inner) => some (.table .headed inner)
    | some _ => none) path

/-- Puts one more table into a list of tables. -/
def append (path : List String) (key : String) (entries table : Entries) : Option Entries :=
  entries.descend false (fun inner => inner.change key fun
    | none => some (.list true [.table .headed table])
    | some (.list true items) => some (.list true (items ++ [.table .headed table]))
    | some _ => none) path

/-- A key with its value. -/
def assign (path : List String) (key : String) (value : Node) (entries : Entries) :
    Option Entries :=
  entries.descend true (fun inner => inner.change key fun
    | none => some value
    | some _ => none) path

end Entries

end SqlFragments.Toml
