import SqlFragments.Query.Slot

/-!
# Queries

A `Query` is a set of slots, followed by the queries that it is united with. It keeps an index of
the expressions that its text is made with, computed when first asked for and dropped by every
change of the slots, and the first fault made while it was built.

The slots come in the order in which they are written; so do the expressions of the index and the
bindings.
-/

namespace SqlFragments

/-- The slots of a query. After a union `combined` holds the order and the page of the whole, while
`page` is that of the first member. -/
structure Slots where
  aggregate : Option Aggregate := none
  columns : List Ident := []
  distinct : Distinct := .none
  table : Option Ident := none
  joins : List Join := []
  wheres : List Predicate := []
  groups : List Ident := []
  havings : List Predicate := []
  page : Paging := {}
  combined : Paging := {}
  lock : Option Lock := none
  deriving Inhabited

/-- The expressions of the slots, without those that order the united whole. -/
def Slots.expressions (s : Slots) : List Expression :=
  (match s.aggregate with
    | some a => a.columns.filterMap Ident.expression?
    | none => []) ++
  s.columns.filterMap Ident.expression? ++
  s.table.toList.filterMap Ident.expression? ++
  s.joins.flatMap Join.expressions ++
  Predicate.expressionsOfAll s.wheres ++
  s.groups.filterMap Ident.expression? ++
  Predicate.expressionsOfAll s.havings ++
  s.page.expressions

/-- A query under construction. A union comes with whether it keeps repeated rows. -/
structure Query where
  slots : Slots := {}
  unions : List (Bool × Query) := []
  index : Option (List Expression) := none
  fault : Option Fault := none
  deriving Inhabited

namespace Query

mutual

/-- The expressions that the text of the query is made with, in the order of the slots: the index,
or what a scan of the slots finds. -/
def expressions : Query → List Expression
  | ⟨_, _, some index, _⟩ => index
  | ⟨slots, unions, none, _⟩ =>
    slots.expressions ++ expressionsOfMembers unions ++ slots.combined.expressions

/-- The expressions of united queries. -/
def expressionsOfMembers : List (Bool × Query) → List Expression
  | [] => []
  | (_, q) :: rest => q.expressions ++ expressionsOfMembers rest

end

mutual

/-- The query with its index computed, and those of the queries it is united with. -/
def indexed : Query → Query
  | ⟨slots, unions, some index, fault⟩ => ⟨slots, unions, some index, fault⟩
  | ⟨slots, unions, none, fault⟩ =>
    let members := indexedMembers unions
    let found := slots.expressions ++ expressionsOfMembers members ++ slots.combined.expressions
    ⟨slots, members, some found, fault⟩

/-- United queries with their indexes computed. -/
def indexedMembers : List (Bool × Query) → List (Bool × Query)
  | [] => []
  | (all, q) :: rest => (all, q.indexed) :: indexedMembers rest

end

/-- The query with the index computed anew. -/
def refreshed (q : Query) : Query :=
  { q with index := none }.indexed

/-- Whether the query is united with others. -/
def isUnion (q : Query) : Bool := !q.unions.isEmpty

end Query

end SqlFragments
