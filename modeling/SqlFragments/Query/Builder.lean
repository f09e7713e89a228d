import SqlFragments.Query.Basic

/-!
# Building queries

Every call takes a query and gives the changed one. A call that compares checks its operator against
`operators` and records a fault when it is not among them; the first fault of a query is kept, and
taken over from the queries that are nested in it or united with it. The operators of join
conditions are written as they are.

Once a query is united with another, order and page are those of the whole.
-/

namespace SqlFragments

/-- The operators that may stand between two operands. -/
def operators : List String :=
  ["=", "<", ">", "<=", ">=", "<>", "!=", "<=>", "like", "not like", "ilike", "not ilike",
   "like binary", "rlike", "not rlike", "regexp", "not regexp", "similar to", "not similar to",
   "&", "|", "^", "<<", ">>", "~", "~*", "!~", "!~*", "@>", "<@", "&&"]

/-- The operator without white space around it and in lower case, as it is written. -/
def normalOperator (operator : String) : String :=
  Text.lower (Text.trim operator)

namespace Query

/-- A query on a table. -/
def onTable (table : Ident) : Query :=
  { slots := { table := some table } }

/-- Changes the slots and drops the index. -/
def edit (q : Query) (change : Slots → Slots) : Query :=
  { q with slots := change q.slots, index := none }

/-- Records a fault, unless there is one already. -/
def fail (q : Query) (fault : Fault) : Query :=
  { q with fault := q.fault.or (some fault) }

/-- Records an operator that is not among `operators`. -/
def checkOperator (q : Query) (operator : String) : Query :=
  if operators.contains (normalOperator operator) then q else q.fail (.invalidOperator operator)

/-- Replaces the selected columns. -/
def select (q : Query) (columns : List Ident) : Query :=
  q.edit ({ · with columns })

/-- Adds a selected column. -/
def addSelect (q : Query) (column : Ident) : Query :=
  q.edit fun s => { s with columns := s.columns ++ [column] }

/-- Leaves out some repeated rows. -/
def withDistinct (q : Query) (distinct : Distinct) : Query :=
  q.edit ({ · with distinct })

/-- Sets the table. -/
def fromTable (q : Query) (table : Ident) : Query :=
  q.edit ({ · with table := some table })

/-- Adds a join. -/
def join (q : Query) (j : Join) : Query :=
  q.edit fun s => { s with joins := s.joins ++ [j] }

/-- Adds a condition on rows. -/
def addWhere (q : Query) (p : Predicate) : Query :=
  q.edit fun s => { s with wheres := s.wheres ++ [p] }

/-- Adds a condition on groups. -/
def addHaving (q : Query) (p : Predicate) : Query :=
  q.edit fun s => { s with havings := s.havings ++ [p] }

/-- Compares a column with a value. Comparing with a literal NULL never holds; what is meant is to
ask whether the column is NULL. -/
def whereValue (q : Query) (link : Connective) (column : Ident) (operator : String)
    (value : Operand) : Query :=
  let q := q.checkOperator operator
  let operator := normalOperator operator
  if value.isNull && (operator == "=" || operator == "!=" || operator == "<>") then
    q.addWhere (.null link column (operator != "="))
  else q.addWhere (.compare link column operator value)

/-- Compares two columns. -/
def whereColumns (q : Query) (first : Ident) (operator : String) (second : Ident) : Query :=
  (q.checkOperator operator).addWhere (.columns .and first (normalOperator operator) second)

/-- Compares a part of a date. -/
def whereDated (q : Query) (part : DatePart) (column : Ident) (operator : String)
    (value : Operand) : Query :=
  (q.checkOperator operator).addWhere (.dated .and part column (normalOperator operator) value)

/-- Adds the conditions of another query as one condition; none, if it has none. -/
def whereNested (q : Query) (nested : Query) : Query :=
  let q := match nested.fault with
    | some fault => q.fail fault
    | none => q
  if nested.slots.wheres.isEmpty then q else q.addWhere (.nested .and nested.slots.wheres)

/-- Adds columns to group by. -/
def groupBy (q : Query) (columns : List Ident) : Query :=
  q.edit fun s => { s with groups := s.groups ++ columns }

/-- Compares a column of groups with a value. -/
def havingValue (q : Query) (link : Connective) (column : Ident) (operator : String)
    (value : Operand) : Query :=
  (q.checkOperator operator).addHaving (.compare link column (normalOperator operator) value)

/-- Changes the order and page: of the whole once the query is united with another, else of the
query. -/
def paged (q : Query) (change : Paging → Paging) : Query :=
  if q.isUnion then q.edit fun s => { s with combined := change s.combined }
  else q.edit fun s => { s with page := change s.page }

/-- Adds what rows are ordered by. -/
def orderBy (q : Query) (order : Order) : Query :=
  q.paged fun p => { p with orders := p.orders ++ [order] }

/-- Limits the number of rows. -/
def limit (q : Query) (n : UInt64) : Query :=
  q.paged ({ · with limit := some n })

/-- Leaves out the first rows. -/
def offset (q : Query) (n : UInt64) : Query :=
  q.paged ({ · with offset := some n })

/-- Unites the query with another, with or without repeated rows. -/
def union (q : Query) (all : Bool) (member : Query) : Query :=
  let q := match member.fault with
    | some fault => q.fail fault
    | none => q
  { q with unions := q.unions ++ [(all, member)], index := none }

/-- Locks the rows that are read. -/
def withLock (q : Query) (lock : Lock) : Query :=
  q.edit ({ · with lock := some lock })

/-- Yields a function of columns in place of the rows. -/
def withAggregate (q : Query) (aggregate : Aggregate) : Query :=
  q.edit ({ · with aggregate := some aggregate })

end Query

end SqlFragments
