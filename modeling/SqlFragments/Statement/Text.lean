import SqlFragments.Query.Basic
import SqlFragments.Query.Record
import SqlFragments.Statement.Name

/-!
# The text of statements

A `Writer` writes statements in a dialect. It gets the text of an expression from a function in any
monad that can fail, so the same writer works on tables that remember what they resolve and on
tables that do not. A bound value is always written `?`; no value ever reaches the text.

The slots of a query are written in their order. Of two errors the one of the earlier slot is
reported, except that the values of an `in` list come before its column and the value of an
assignment before its column.
-/

namespace SqlFragments

/-- Writes statements in a dialect, with a source of the texts of expressions. -/
structure Writer (m : Type → Type) where
  dialect : Dialect
  expression : Expression → m String

namespace Writer

variable {m : Type → Type} [Monad m] [MonadExceptOf Error m]

/-- The result or the error of a step that needs no tables. -/
def lift {α : Type} : Except Error α → m α
  | .ok a => pure a
  | .error e => throw e

/-- The texts of the members of a list, in order. -/
def each {α : Type} (f : α → m String) : List α → m (List String)
  | [] => pure []
  | a :: rest => do
    let first ← f a
    let others ← each f rest
    return first :: others

/-- A clause with its keyword, where there is something to write. -/
def clause (present : Bool) (keyword : String) (text : m String) : m String :=
  if present then do return keyword ++ (← text) else pure ""

/-- A column or table. -/
def ident (w : Writer m) : Ident → m String
  | .name name => pure (w.dialect.wrap name)
  | .raw fragment => w.expression fragment.expression

/-- Columns with commas between them. -/
def columns (w : Writer m) (cs : List Ident) : m String := do
  return Text.commaList (← each w.ident cs)

/-- Columns with commas between them; all columns, where none is given. -/
def columnsOrAll (w : Writer m) (cs : List Ident) : m String :=
  if cs.isEmpty then pure "*" else w.columns cs

/-- A value: a placeholder, or the text of an expression. -/
def operand (w : Writer m) : Operand → m String
  | .bound _ => pure "?"
  | .inline e => w.expression e

/-- The table of a query that has to have one. -/
def table (w : Writer m) (q : Query) : m String :=
  match q.slots.table with
  | some t => w.ident t
  | none => throw (.invalid .noTable)

mutual

/-- A predicate without the word that joins it to the one before. No row is in an empty list. -/
def predicate (w : Writer m) : Predicate → m String
  | .compare _ column operator value => do
    let left ← w.ident column
    let right ← w.operand value
    return left ++ " " ++ operator ++ " " ++ right
  | .raw _ fragment => w.expression fragment.expression
  | .among _ column negated values =>
    if values.isEmpty then pure (if negated then "1 = 1" else "0 = 1")
    else do
      let list ← each w.operand values
      let left ← w.ident column
      return left ++ (if negated then " not in (" else " in (") ++ Text.commaList list ++ ")"
  | .null _ column negated => do
    let left ← w.ident column
    return left ++ (if negated then " is not null" else " is null")
  | .between _ column negated low high => do
    let left ← w.ident column
    let first ← w.operand low
    let last ← w.operand high
    return left ++ (if negated then " not between " else " between ") ++ first ++ " and " ++ last
  | .columns _ first operator second => do
    let left ← w.ident first
    let right ← w.ident second
    return left ++ " " ++ operator ++ " " ++ right
  | .nested _ members => do
    let inner ← w.predicates members
    return "(" ++ inner ++ ")"
  | .dated _ part column operator value => do
    let left ← w.ident column
    let right ← w.operand value
    return w.dialect.dateWhere part left operator right

/-- Predicates joined by their words; the word of the first is left out. -/
def predicates (w : Writer m) : List Predicate → m String
  | [] => pure ""
  | p :: rest => do
    let first ← w.predicate p
    let others ← w.followers rest
    return first ++ others

/-- Predicates that follow another, each with the word that joins it. -/
def followers (w : Writer m) : List Predicate → m String
  | [] => pure ""
  | p :: rest => do
    let first ← w.predicate p
    let others ← w.followers rest
    return " " ++ p.link.word ++ " " ++ first ++ others

end

/-- One join. A cross join without conditions writes no `on`. -/
def join (w : Writer m) (j : Join) : m String := do
  let table ← w.ident j.table
  let conditions ← clause (j.kind != .cross || !j.clauses.isEmpty) " on " (w.predicates j.clauses)
  return " " ++ j.kind.word ++ " join " ++ table ++ conditions

/-- The joins of a query. -/
def joins (w : Writer m) : List Join → m String
  | [] => pure ""
  | j :: rest => do
    let first ← w.join j
    let others ← w.joins rest
    return first ++ others

/-- What rows are ordered by. -/
def order (w : Writer m) : Order → m String
  | .column column descending => do
    let text ← w.ident column
    return text ++ (if descending then " desc" else " asc")
  | .raw fragment => w.expression fragment.expression

/-- The clause that orders rows. -/
def orderBy (w : Writer m) (orders : List Order) : m String :=
  clause (!orders.isEmpty) " order by " do return Text.commaList (← each w.order orders)

/-- The clause that selects rows. -/
def whereClause (w : Writer m) (wheres : List Predicate) : m String :=
  clause (!wheres.isEmpty) " where " (w.predicates wheres)

/-- The call of an aggregate function. Over all columns nothing is repeated, so it takes no
`distinct`. -/
def aggregateCall (w : Writer m) (a : Aggregate) (distinct : Distinct) : m String := do
  let columns ← w.columnsOrAll a.columns
  let columns := if distinct != .none && columns != "*" then "distinct " ++ columns else columns
  return a.function ++ "(" ++ columns ++ ") as " ++ w.dialect.quote "aggregate"

/-- The word that leaves out repeated rows. -/
def distinct (w : Writer m) : Distinct → m String
  | .none => pure ""
  | .all => pure "distinct "
  | .on columns =>
    if w.dialect = .postgres then
      pure ("distinct on (" ++ Text.commaList (columns.map w.dialect.wrap) ++ ") ")
    else throw (w.dialect.lacks .distinctOn)

/-- What a query selects: the page where the dialect writes it first, then the columns. -/
def selection (w : Writer m) (s : Slots) : m String := do
  let top := match w.dialect.top s.page.limit s.page.offset with
    | some top => top ++ " "
    | none => ""
  let distinct ← w.distinct s.distinct
  let columns ← w.columnsOrAll s.columns
  return top ++ distinct ++ columns

/-- The table that a query reads, with the lock where the dialect writes it there. -/
def source (w : Writer m) (s : Slots) : m String :=
  match s.table with
  | none => pure ""
  | some t => do
    let table ← w.ident t
    let hint := match s.lock.bind w.dialect.tableHint with
      | some hint => " " ++ hint
      | none => ""
    return " from " ++ table ++ hint

/-- What stands after `select`, with the limit that is left for the end of the query: a page that
follows `select` is not written again. An aggregate takes the place of the columns if `aggregated`
is set. -/
def selected (w : Writer m) (s : Slots) (aggregated : Bool) : m (String × Option UInt64) :=
  match s.aggregate, aggregated with
  | some a, true => do return (← w.aggregateCall a s.distinct, s.page.limit)
  | _, _ => do
    let selection ← w.selection s
    let onTop := (w.dialect.top s.page.limit s.page.offset).isSome
    return (selection, if onTop then none else s.page.limit)

/-- A query without what it is united with. -/
def components (w : Writer m) (s : Slots) (aggregated : Bool) : m String := do
  let (selected, limit) ← w.selected s aggregated
  let source ← w.source s
  let joins ← w.joins s.joins
  let wheres ← w.whereClause s.wheres
  let groups ← clause (!s.groups.isEmpty) " group by " (w.columns s.groups)
  let havings ← clause (!s.havings.isEmpty) " having " (w.predicates s.havings)
  let orders ← w.orderBy s.page.orders
  let page := w.dialect.limitOffset limit s.page.offset (!s.page.orders.isEmpty)
  let lock := match s.lock with
    | some lock => w.dialect.lock lock
    | none => ""
  return "select " ++ selected ++ source ++ joins ++ wheres ++ groups ++ havings ++ orders ++
    page ++ lock

mutual

/-- A query. The aggregate of a union counts its rows from outside. -/
def select (w : Writer m) : Query → m String
  | ⟨slots, [], _, _⟩ => w.components slots true
  | ⟨slots, u :: us, _, _⟩ => do
    let first ← w.components slots false
    let others ← w.members (u :: us)
    let orders ← w.orderBy slots.combined.orders
    let page := w.dialect.limitOffset slots.combined.limit slots.combined.offset
      (!slots.combined.orders.isEmpty)
    let whole := w.dialect.wrapUnion first ++ others ++ orders ++ page
    match slots.aggregate with
    | some a =>
      let call ← w.aggregateCall a slots.distinct
      return "select " ++ call ++ " from (" ++ whole ++ ") as " ++ w.dialect.quote "temp_table"
    | none => return whole

/-- The members of a union after the first. -/
def members (w : Writer m) : List (Bool × Query) → m String
  | [] => pure ""
  | (all, q) :: rest => do
    let first ← w.select q
    let others ← w.members rest
    return (if all then " union all " else " union ") ++ w.dialect.wrapUnion first ++ others

end

/-- The question whether a query has rows. -/
def hasRows (w : Writer m) (q : Query) : m String := do
  return w.dialect.hasRows (← w.select q)

/-- The values of a row to insert. -/
def row (w : Writer m) (r : Record) : m String := do
  return "(" ++ Text.commaList (← each (fun entry => w.operand entry.2) r.entries) ++ ")"

/-- The insertion of rows, which all have the columns of the first. Where the first has none, a row
of defaults. -/
def insert (w : Writer m) (q : Query) (rows : List Record) : m String := do
  let table ← w.table q
  match rows with
  | [] => return w.dialect.emptyInsert table
  | first :: _ =>
    if first.isEmpty then return w.dialect.emptyInsert table
    else
      let columns := first.columns.map w.dialect.wrap
      let tuples ← each w.row rows
      return "insert into " ++ table ++ " (" ++ Text.commaList columns ++ ") values " ++
        Text.commaList tuples

/-- The insertion of rows that are not there already. -/
def insertOrIgnore (w : Writer m) (q : Query) (rows : List Record) : m String := do
  lift (w.dialect.insertOrIgnore (← w.insert q rows))

/-- The insertion of one row that reports its key. -/
def insertGetId (w : Writer m) (q : Query) (r : Record) (sequence : String) : m String := do
  return w.dialect.insertGetId (← w.insert q [r]) sequence

/-- The insertion of the rows of a query. -/
def insertUsing (w : Writer m) (q : Query) (columns : List String) (source : Query) : m String := do
  let table ← w.table q
  let select ← w.select source
  let list :=
    if columns.isEmpty then ""
    else "(" ++ Text.commaList (columns.map w.dialect.wrap) ++ ") "
  return "insert into " ++ table ++ " " ++ list ++ select

/-- The assignments of an insertion that changes rows that are there already. -/
def assignments (w : Writer m) : List (String × Operand) → m (List (String × String))
  | [] => pure []
  | (column, value) :: rest => do
    let text ← w.operand value
    let others ← w.assignments rest
    return (w.dialect.wrap column, text) :: others

/-- The insertion of rows that changes those that are there already. -/
def upsert (w : Writer m) (q : Query) (rows : List Record) (uniqueBy update : List String)
    (given : Record) : m String := do
  let insert ← w.insert q rows
  let assignments ← w.assignments given.entries
  lift (w.dialect.upsert insert (uniqueBy.map w.dialect.wrap) (update.map w.dialect.wrap)
    assignments)

/-- Refuses to change rows through joins, in an order or up to a limit where the dialect cannot. -/
def checkMutation (w : Writer m) (s : Slots) (mutation : Mutation) : m Unit :=
  if w.dialect.allowsJoinedMutation then pure ()
  else if !s.joins.isEmpty then throw (w.dialect.lacks (.joined mutation))
  else if !s.page.orders.isEmpty || s.page.limit.isSome then
    throw (w.dialect.lacks (.paged mutation))
  else pure ()

/-- The assignment of a value to a column, or to a place inside a JSON column. -/
def assignment (w : Writer m) (column : String) (value : Operand) : m String := do
  let text ← w.operand value
  match Text.splitArrows column.toList with
  | base :: key :: keys =>
    lift (w.dialect.jsonUpdate (w.dialect.wrap (String.ofList base))
      ((key :: keys).map String.ofList) text)
  | _ => return w.dialect.wrap column ++ " = " ++ text

/-- The end of a statement that changes rows: which rows, in which order, and how many. -/
def mutationTail (w : Writer m) (s : Slots) : m String := do
  let wheres ← w.whereClause s.wheres
  let orders ← w.orderBy s.page.orders
  let limit := match s.page.limit with
    | some n => " limit " ++ toString n.toNat
    | none => ""
  return wheres ++ orders ++ limit

/-- The value of a column changed by an amount. -/
def stepped (d : Dialect) (column : String) (down : Bool) (amount : Int64) : String :=
  d.wrap column ++ (if down then " - " else " + ") ++ toString amount.toInt

/-- The change of columns of rows. -/
def update (w : Writer m) (q : Query) (values : Record) : m String := do
  w.checkMutation q.slots .update
  if values.isEmpty then throw (.invalid .noAssignments)
  else
    let table ← w.table q
    let assignments ← each (fun entry => w.assignment entry.1 entry.2) values.entries
    let joins ← w.joins q.slots.joins
    let tail ← w.mutationTail q.slots
    return "update " ++ table ++ joins ++ " set " ++ Text.commaList assignments ++ tail

/-- What the deletion through joins calls the table that loses rows. -/
def target (w : Writer m) (q : Query) (table : String) : String :=
  match q.slots.table with
  | some (.name name) => w.dialect.wrapTarget name
  | _ => table

/-- The deletion of rows. -/
def delete (w : Writer m) (q : Query) : m String := do
  w.checkMutation q.slots .delete
  let table ← w.table q
  let joins ← w.joins q.slots.joins
  let target := if q.slots.joins.isEmpty then "" else w.target q table ++ " "
  let tail ← w.mutationTail q.slots
  return "delete " ++ target ++ "from " ++ table ++ joins ++ tail

end Writer

/-- The statements that empty the table of a query, which has to be given by name. -/
def Dialect.truncateQuery (d : Dialect) (q : Query) : Except Error (List Statement) :=
  match q.slots.table with
  | some (.name name) => .ok (d.truncate (d.wrap name) name)
  | some (.raw _) => .error (.invalid .rawTruncate)
  | none => .error (.invalid .noTable)

/-- The writer for a context that remembers what it resolves. -/
def Writer.remembering (d : Dialect) (ctx : Context) : Writer Resolution :=
  ⟨d, Expression.resolveIn ctx⟩

/-- The writer for a context that reads given tables. -/
def Writer.reading (d : Dialect) (ctx : Context) (tables : Tables) : Writer (Except Error) :=
  ⟨d, Expression.resolve (tables.lookup ctx)⟩

end SqlFragments
