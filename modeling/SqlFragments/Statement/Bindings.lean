import SqlFragments.Query.Basic
import SqlFragments.Query.Record

/-!
# The bindings of statements

The bindings of a statement, in the order in which its text has placeholders: the same slots that
the text is written from, in the same order. Repeated rows, limits and locks have no bindings.
-/

namespace SqlFragments

/-- The bindings of the slots of a query. An aggregate takes the place of the columns, unless it is
that of a union, where the columns are written too. -/
def Slots.bindings (s : Slots) (united : Bool) : List Binding :=
  (match s.aggregate with
    | some a => a.columns.flatMap Ident.bindings
    | none => []) ++
  (if s.aggregate.isNone || united then s.columns.flatMap Ident.bindings else []) ++
  s.table.toList.flatMap Ident.bindings ++
  s.joins.flatMap Join.bindings ++
  Predicate.bindingsOfAll s.wheres ++
  s.groups.flatMap Ident.bindings ++
  Predicate.bindingsOfAll s.havings ++
  s.page.bindings

namespace Query

mutual

/-- The bindings of a query that is read. -/
def selectBindings : Query → List Binding
  | ⟨slots, unions, _, _⟩ =>
    slots.bindings (!unions.isEmpty) ++ membersBindings unions ++ slots.combined.bindings

/-- The bindings of united queries. -/
def membersBindings : List (Bool × Query) → List Binding
  | [] => []
  | (_, q) :: rest => q.selectBindings ++ membersBindings rest

end

/-- The bindings of the table that a statement writes to. -/
def tableBindings (q : Query) : List Binding :=
  q.slots.table.toList.flatMap Ident.bindings

/-- The bindings of rows to insert: the table, then row by row. -/
def insertBindings (q : Query) (rows : List Record) : List Binding :=
  q.tableBindings ++ rows.flatMap Record.bindings

/-- The bindings of the insertion of a query's rows. -/
def insertUsingBindings (q source : Query) : List Binding :=
  q.tableBindings ++ source.selectBindings

/-- The bindings of conditions and order of a statement that changes rows. -/
def tailBindings (q : Query) : List Binding :=
  Predicate.bindingsOfAll q.slots.wheres ++ q.slots.page.bindings

/-- The bindings of a change: the table, the joins, the assigned values, conditions and order. -/
def updateBindings (q : Query) (values : Record) : List Binding :=
  q.tableBindings ++ q.slots.joins.flatMap Join.bindings ++ values.bindings ++ q.tailBindings

/-- The bindings of an insertion that changes rows: the inserted rows, then the assignments. -/
def upsertBindings (q : Query) (rows : List Record) (given : Record) : List Binding :=
  q.insertBindings rows ++ given.bindings

/-- The bindings of a deletion. A raw table is written twice where there are joins. -/
def deleteBindings (q : Query) : List Binding :=
  (match q.slots.joins, q.slots.table with
    | _ :: _, some (.raw fragment) => fragment.bindings
    | _, _ => []) ++
  q.tableBindings ++ q.slots.joins.flatMap Join.bindings ++ q.tailBindings

end Query

end SqlFragments
