import SqlFragments.Proofs.Forms
import SqlFragments.Proofs.Indexing

/-!
# Exchanging expressions and bound values

An `Exchange` puts an expression in the place of every expression and a bound value in the place of
every bound value, and keeps how many bindings each expression has and whether it needs a table. The
`exchange` of a query, of rows or of a whole statement does so in every slot and drops what queries
remember. The expressions and the bindings of what comes out are those of what went in, exchanged
one by one.
-/

namespace SqlFragments

/-- What is put in the place of identities, of expressions and of bound values. -/
structure Exchange where
  identity : Identity → Identity
  expression : Expression → Expression
  binding : Binding → Binding
  bindings_expression : ∀ e, (expression e).bindings = e.bindings.map binding
  isGrammar_expression : ∀ e, (expression e).isGrammar = e.isGrammar
  expression_text : ∀ id sql,
    expression (.text id (.native []) sql) = .text (identity id) (.native []) sql

variable (x : Exchange)

/-! ## Slots -/

/-- The value with what stands in it exchanged. -/
def Operand.exchange : Operand → Operand
  | bound b => bound (x.binding b)
  | inline e => inline (x.expression e)

/-- The fragment with its expression and its further bindings exchanged. -/
def RawFragment.exchange (f : RawFragment) : RawFragment :=
  ⟨x.expression f.expression, f.extra.map x.binding⟩

/-- The column or table with its fragment exchanged. -/
def Ident.exchange : Ident → Ident
  | name n => name n
  | raw f => raw (f.exchange x)

namespace Predicate

mutual

/-- The predicate with what stands in it exchanged. -/
def exchange : Predicate → Predicate
  | compare link column operator value =>
    compare link (column.exchange x) operator (value.exchange x)
  | raw link fragment => raw link (fragment.exchange x)
  | among link column negated values =>
    among link (column.exchange x) negated (values.map (Operand.exchange x))
  | null link column negated => null link (column.exchange x) negated
  | between link column negated low high =>
    between link (column.exchange x) negated (low.exchange x) (high.exchange x)
  | columns link first operator second =>
    columns link (first.exchange x) operator (second.exchange x)
  | nested link members => nested link (exchangeAll members)
  | dated link part column operator value =>
    dated link part (column.exchange x) operator (value.exchange x)

/-- Predicates with what stands in them exchanged. -/
def exchangeAll : List Predicate → List Predicate
  | [] => []
  | p :: ps => p.exchange :: exchangeAll ps

end

end Predicate

/-- The join with its table and its conditions exchanged. -/
def Join.exchange (j : Join) : Join :=
  ⟨j.kind, j.table.exchange x, Predicate.exchangeAll x j.clauses⟩

/-- What rows are ordered by, exchanged. -/
def Order.exchange : Order → Order
  | column c descending => column (c.exchange x) descending
  | raw f => raw (f.exchange x)

/-- The page with its order exchanged. -/
def Paging.exchange (p : Paging) : Paging :=
  { p with orders := p.orders.map (Order.exchange x) }

/-- The aggregate with its columns exchanged. -/
def Aggregate.exchange (a : Aggregate) : Aggregate :=
  ⟨a.function, a.columns.map (Ident.exchange x)⟩

/-- The slots with what stands in them exchanged. -/
def Slots.exchange (s : Slots) : Slots where
  aggregate := s.aggregate.map (Aggregate.exchange x)
  columns := s.columns.map (Ident.exchange x)
  distinct := s.distinct
  table := s.table.map (Ident.exchange x)
  joins := s.joins.map (Join.exchange x)
  wheres := Predicate.exchangeAll x s.wheres
  groups := s.groups.map (Ident.exchange x)
  havings := Predicate.exchangeAll x s.havings
  page := s.page.exchange x
  combined := s.combined.exchange x
  lock := s.lock

/-! ## Queries and statements -/

namespace Query

mutual

/-- The query with its slots and its members exchanged and nothing remembered. -/
def exchange : Query → Query
  | ⟨slots, unions, _, fault⟩ => ⟨slots.exchange x, exchangeMembers unions, none, fault⟩

/-- United queries, exchanged. -/
def exchangeMembers : List (Bool × Query) → List (Bool × Query)
  | [] => []
  | (all, q) :: rest => (all, q.exchange) :: exchangeMembers rest

end

end Query

/-- The column with its value exchanged. -/
def Record.exchangeEntry (entry : String × Operand) : String × Operand :=
  (entry.1, entry.2.exchange x)

/-- The record with its values exchanged. -/
def Record.exchange (r : Record) : Record where
  entries := r.entries.map (Record.exchangeEntry x)
  distinct := by
    rw [List.map_map]
    exact r.distinct

/-- The request with its rows, its values and its source exchanged. -/
def Request.exchange : Request → Request
  | select => select
  | hasRows => hasRows
  | aggregate function columns => aggregate function columns
  | insert rows => insert (rows.map (Record.exchange x))
  | insertOrIgnore rows => insertOrIgnore (rows.map (Record.exchange x))
  | insertGetId row sequence => insertGetId (row.exchange x) sequence
  | insertUsing columns source => insertUsing columns (source.exchange x)
  | update values => update (values.exchange x)
  | step column down amount extra => step column down amount (extra.exchange x)
  | upsert rows uniqueBy changed given =>
    upsert (rows.map (Record.exchange x)) uniqueBy changed (given.exchange x)
  | delete => delete
  | truncate => truncate

/-- The statement with its queries, rows and values exchanged. -/
def Writing.exchange : Writing → Writing
  | insert q rows => insert (q.exchange x) (rows.map (Record.exchange x))
  | insertOrIgnore q rows => insertOrIgnore (q.exchange x) (rows.map (Record.exchange x))
  | insertGetId q row sequence => insertGetId (q.exchange x) (row.exchange x) sequence
  | insertUsing q columns source => insertUsing (q.exchange x) columns (source.exchange x)
  | update q values => update (q.exchange x) (values.exchange x)
  | step q id column down amount extra =>
    step (q.exchange x) (x.identity id) column down amount (extra.exchange x)
  | upsert q rows uniqueBy changed given =>
    upsert (q.exchange x) (rows.map (Record.exchange x)) uniqueBy changed (given.exchange x)
  | delete q => delete (q.exchange x)

/-- The statement with its queries, rows and values exchanged. -/
def Form.exchange : Form → Form
  | select q => select (q.exchange x)
  | hasRows q => hasRows (q.exchange x)
  | writing w => writing (w.exchange x)

/-! ## Expressions -/

@[simp] theorem Operand.expression?_exchange (o : Operand) :
    (o.exchange x).expression? = o.expression?.map x.expression := by
  cases o <;> rfl

@[simp] theorem Ident.expression?_exchange (i : Ident) :
    (i.exchange x).expression? = i.expression?.map x.expression := by
  cases i <;> rfl

@[simp] theorem Order.expression?_exchange (o : Order) :
    (o.exchange x).expression? = o.expression?.map x.expression := by
  cases o with
  | column c descending => exact c.expression?_exchange x
  | raw f => rfl

/-- The expressions of exchanged parts are the exchanged expressions of the parts. -/
theorem filterMap_exchange {α β : Type} {f : β → Option Expression} {g : α → Option Expression}
    {h : α → β} (each : ∀ a, f (h a) = (g a).map x.expression) (as : List α) :
    (as.map h).filterMap f = (as.filterMap g).map x.expression := by
  rw [List.filterMap_map, List.map_filterMap]
  exact List.filterMap_congr fun a _ => each a

/-- The same for parts that have any number of what is mapped. -/
theorem flatMap_exchange {α β γ : Type} {f : β → List γ} {g : α → List γ} {h : α → β} {k : γ → γ}
    (each : ∀ a, f (h a) = (g a).map k) (as : List α) :
    (as.map h).flatMap f = (as.flatMap g).map k := by
  rw [List.flatMap_map, List.map_flatMap]
  exact List.flatMap_congr fun a _ => each a

namespace Predicate

mutual

theorem expressions_exchange : ∀ p : Predicate,
    (p.exchange x).expressions = p.expressions.map x.expression
  | compare _ column _ value | dated _ _ column _ value => by
    simp [exchange, expressions, Option.toList_map]
  | raw _ fragment => rfl
  | among _ column _ values => by
    have listed := filterMap_exchange x (Operand.expression?_exchange x) values
    simp [exchange, expressions, Option.toList_map, listed]
  | null _ column _ => by simp [exchange, expressions, Option.toList_map]
  | between _ column _ low high => by simp [exchange, expressions, Option.toList_map]
  | columns _ first _ second => by simp [exchange, expressions, Option.toList_map]
  | nested _ members => expressionsOfAll_exchange members

theorem expressionsOfAll_exchange : ∀ ps : List Predicate,
    expressionsOfAll (exchangeAll x ps) = (expressionsOfAll ps).map x.expression
  | [] => rfl
  | p :: ps => by
    rw [exchangeAll, expressionsOfAll, expressionsOfAll, expressions_exchange p,
      expressionsOfAll_exchange ps, List.map_append]

end

end Predicate

@[simp] theorem Join.expressions_exchange (j : Join) :
    (j.exchange x).expressions = j.expressions.map x.expression := by
  simp only [Join.exchange, Join.expressions, Ident.expression?_exchange,
    Predicate.expressionsOfAll_exchange, List.map_append, Option.toList_map]

@[simp] theorem Paging.expressions_exchange (p : Paging) :
    (p.exchange x).expressions = p.expressions.map x.expression :=
  filterMap_exchange x (Order.expression?_exchange x) p.orders

theorem Slots.expressions_exchange (s : Slots) :
    (s.exchange x).expressions = s.expressions.map x.expression := by
  have columns := filterMap_exchange x (Ident.expression?_exchange x)
  have table : (s.table.map (Ident.exchange x)).toList.filterMap Ident.expression? =
      (s.table.toList.filterMap Ident.expression?).map x.expression := by
    rw [Option.toList_map]
    exact columns _
  simp only [Slots.expressions, Slots.exchange, columns, table, Paging.expressions_exchange,
    Predicate.expressionsOfAll_exchange, flatMap_exchange (Join.expressions_exchange x),
    List.map_append]
  cases s.aggregate with
  | none => rfl
  | some a => simp only [Option.map_some, Aggregate.exchange, columns]

namespace Query

mutual

/-- An exchanged query remembers nothing, so its expressions are those that a scan finds. -/
theorem expressions_exchange : ∀ q : Query,
    (q.exchange x).expressions = q.scan.map x.expression
  | ⟨slots, unions, _, _⟩ => by
    simp only [exchange, expressions, scan, Slots.expressions_exchange,
      expressionsOfMembers_exchange unions, List.map_append]
    rw [← Paging.expressions_exchange]
    rfl

theorem expressionsOfMembers_exchange : ∀ us : List (Bool × Query),
    expressionsOfMembers (exchangeMembers x us) = (scanMembers us).map x.expression
  | [] => rfl
  | (_, q) :: us => by
    rw [exchangeMembers, expressionsOfMembers, scanMembers, expressions_exchange q,
      expressionsOfMembers_exchange us, List.map_append]

end

end Query

@[simp] theorem Record.expressions_exchange (r : Record) :
    (r.exchange x).expressions = r.expressions.map x.expression :=
  filterMap_exchange x (fun entry => entry.2.expression?_exchange x) r.entries

/-! ## Bindings -/

@[simp] theorem Operand.bindings_exchange (o : Operand) :
    (o.exchange x).bindings = o.bindings.map x.binding := by
  cases o with
  | bound b => rfl
  | inline e => exact x.bindings_expression e

@[simp] theorem RawFragment.bindings_exchange (f : RawFragment) :
    (f.exchange x).bindings = f.bindings.map x.binding := by
  simp only [RawFragment.exchange, RawFragment.bindings, x.bindings_expression, List.map_append]

@[simp] theorem Ident.bindings_exchange (i : Ident) :
    (i.exchange x).bindings = i.bindings.map x.binding := by
  cases i with
  | name n => rfl
  | raw f => exact f.bindings_exchange x

namespace Predicate

mutual

theorem bindings_exchange : ∀ p : Predicate,
    (p.exchange x).bindings = p.bindings.map x.binding
  | compare _ column _ value | dated _ _ column _ value => by simp [exchange, bindings]
  | raw _ fragment => fragment.bindings_exchange x
  | among _ column _ values => by
    have listed := flatMap_exchange (Operand.bindings_exchange x) values
    simp [exchange, bindings, listed]
  | null _ column _ => column.bindings_exchange x
  | between _ column _ low high => by simp [exchange, bindings]
  | columns _ first _ second => by simp [exchange, bindings]
  | nested _ members => bindingsOfAll_exchange members

theorem bindingsOfAll_exchange : ∀ ps : List Predicate,
    bindingsOfAll (exchangeAll x ps) = (bindingsOfAll ps).map x.binding
  | [] => rfl
  | p :: ps => by
    rw [exchangeAll, bindingsOfAll, bindingsOfAll, bindings_exchange p, bindingsOfAll_exchange ps,
      List.map_append]

end

end Predicate

@[simp] theorem Join.bindings_exchange (j : Join) :
    (j.exchange x).bindings = j.bindings.map x.binding := by
  simp only [Join.exchange, Join.bindings, Ident.bindings_exchange,
    Predicate.bindingsOfAll_exchange, List.map_append]

@[simp] theorem Order.bindings_exchange (o : Order) :
    (o.exchange x).bindings = o.bindings.map x.binding := by
  cases o with
  | column c descending => exact c.bindings_exchange x
  | raw f => exact f.bindings_exchange x

@[simp] theorem Paging.bindings_exchange (p : Paging) :
    (p.exchange x).bindings = p.bindings.map x.binding :=
  flatMap_exchange (Order.bindings_exchange x) p.orders

/-- The bindings of a table that may be missing. -/
@[simp] theorem Ident.toList_bindings_exchange (table : Option Ident) :
    (table.map (Ident.exchange x)).toList.flatMap Ident.bindings =
      (table.toList.flatMap Ident.bindings).map x.binding := by
  rw [Option.toList_map]
  exact flatMap_exchange (Ident.bindings_exchange x) _

theorem Slots.bindings_exchange (s : Slots) (united : Bool) :
    (s.exchange x).bindings united = (s.bindings united).map x.binding := by
  have columns := flatMap_exchange (Ident.bindings_exchange x)
  simp only [Slots.bindings, Slots.exchange, columns, Ident.toList_bindings_exchange,
    Paging.bindings_exchange, Predicate.bindingsOfAll_exchange,
    flatMap_exchange (Join.bindings_exchange x), List.map_append]
  cases s.aggregate with
  | none => rfl
  | some a =>
    cases united <;>
      simp only [Option.map_some, Option.isNone_some, Aggregate.exchange, columns, Bool.false_or,
        Bool.false_eq_true, if_false, if_true, List.map_nil]

namespace Query

mutual

theorem selectBindings_exchange : ∀ q : Query,
    (q.exchange x).selectBindings = q.selectBindings.map x.binding
  | ⟨slots, unions, _, _⟩ => by
    have united : (exchangeMembers x unions).isEmpty = unions.isEmpty := by
      cases unions <;> rfl
    simp only [exchange, selectBindings, Slots.bindings_exchange, united,
      membersBindings_exchange unions, List.map_append]
    rw [← Paging.bindings_exchange]
    rfl

theorem membersBindings_exchange : ∀ us : List (Bool × Query),
    membersBindings (exchangeMembers x us) = (membersBindings us).map x.binding
  | [] => rfl
  | (_, q) :: us => by
    rw [exchangeMembers, membersBindings, membersBindings, selectBindings_exchange q,
      membersBindings_exchange us, List.map_append]

end

@[simp] theorem slots_exchange (q : Query) : (q.exchange x).slots = q.slots.exchange x := by
  cases q
  rfl

@[simp] theorem fault_exchange (q : Query) : (q.exchange x).fault = q.fault := by
  cases q
  rfl

mutual

/-- An exchange looks at nothing that a query remembers. -/
theorem exchange_bare : ∀ q : Query, q.bare.exchange x = q.exchange x
  | ⟨_, us, _, _⟩ => by rw [bare, exchange, exchange, exchangeMembers_bare us]

theorem exchangeMembers_bare : ∀ us : List (Bool × Query),
    exchangeMembers x (bareMembers us) = exchangeMembers x us
  | [] => rfl
  | (_, q) :: us => by
    rw [bareMembers, exchangeMembers, exchangeMembers, exchange_bare q, exchangeMembers_bare us]

end

theorem tableBindings_exchange (q : Query) :
    (q.exchange x).tableBindings = q.tableBindings.map x.binding := by
  rw [tableBindings, slots_exchange]
  exact Ident.toList_bindings_exchange x _

theorem tailBindings_exchange (q : Query) :
    (q.exchange x).tailBindings = q.tailBindings.map x.binding := by
  rw [tailBindings, slots_exchange, tailBindings, List.map_append,
    ← Predicate.bindingsOfAll_exchange, ← Paging.bindings_exchange]
  rfl

theorem joinBindings_exchange (q : Query) :
    (q.exchange x).slots.joins.flatMap Join.bindings =
      (q.slots.joins.flatMap Join.bindings).map x.binding := by
  rw [slots_exchange]
  exact flatMap_exchange (Join.bindings_exchange x) _

end Query

@[simp] theorem Record.bindings_exchange (r : Record) :
    (r.exchange x).bindings = r.bindings.map x.binding :=
  flatMap_exchange (fun entry => entry.2.bindings_exchange x) r.entries

namespace Query

theorem insertBindings_exchange (q : Query) (rows : List Record) :
    (q.exchange x).insertBindings (rows.map (Record.exchange x)) =
      (q.insertBindings rows).map x.binding := by
  rw [insertBindings, insertBindings, tableBindings_exchange,
    flatMap_exchange (Record.bindings_exchange x), List.map_append]

theorem updateBindings_exchange (q : Query) (values : Record) :
    (q.exchange x).updateBindings (values.exchange x) =
      (q.updateBindings values).map x.binding := by
  simp only [updateBindings, tableBindings_exchange, joinBindings_exchange,
    Record.bindings_exchange, tailBindings_exchange, List.map_append]

theorem deleteBindings_exchange (q : Query) :
    (q.exchange x).deleteBindings = q.deleteBindings.map x.binding := by
  simp only [deleteBindings, tableBindings_exchange, joinBindings_exchange, tailBindings_exchange,
    List.map_append]
  congr 3
  rw [slots_exchange, Slots.exchange]
  rcases q.slots.joins with - | ⟨j, js⟩
  · rfl
  · rcases q.slots.table with - | ⟨n | f⟩
    · rfl
    · rfl
    · exact f.bindings_exchange x

end Query

/-! ## Statements -/

/-- The record that also changes a column by an amount, exchanged: it changes the column by the same
amount, in an expression with another identity. -/
theorem Record.stepped_exchange (r : Record) (d : Dialect) (id : Identity) (column : String)
    (down : Bool) (amount : Int64) :
    (r.exchange x).stepped d (x.identity id) column down amount =
      (r.stepped d id column down amount).exchange x := by
  refine Record.ext ?_
  simp only [Record.stepped, Record.setFirst, Record.without, Record.exchange, List.map_cons,
    Record.exchangeEntry, Operand.exchange, x.expression_text, List.filter_map]
  rfl

theorem Writing.bindings_exchange (d : Dialect) (w : Writing) :
    (w.exchange x).bindings d = (w.bindings d).map x.binding := by
  cases w with
  | insert q rows | insertOrIgnore q rows => exact q.insertBindings_exchange x rows
  | insertGetId q row sequence => exact q.insertBindings_exchange x [row]
  | insertUsing q columns source =>
    simp only [exchange, bindings, Query.insertUsingBindings, Query.tableBindings_exchange,
      Query.selectBindings_exchange, List.map_append]
  | update q values => exact q.updateBindings_exchange x values
  | step q id column down amount extra =>
    simp only [exchange, bindings, Record.stepped_exchange, Query.updateBindings_exchange]
  | upsert q rows uniqueBy changed given =>
    simp only [exchange, bindings, Query.upsertBindings, Query.insertBindings_exchange,
      Record.bindings_exchange, List.map_append]
  | delete q => exact q.deleteBindings_exchange x

theorem Writing.extra_exchange (d : Dialect) (w : Writing) :
    (w.exchange x).extra d = (w.extra d).map x.expression := by
  have rows := flatMap_exchange (Record.expressions_exchange x)
  cases w with
  | insert q rs | insertOrIgnore q rs => exact rows rs
  | insertGetId q row sequence => exact row.expressions_exchange x
  | insertUsing q columns source | delete q => rfl
  | update q values => exact values.expressions_exchange x
  | step q id column down amount extra =>
    simp only [exchange, Writing.extra, Record.stepped_exchange, Record.expressions_exchange]
  | upsert q rs uniqueBy changed given =>
    simp only [exchange, Writing.extra, rows, Record.expressions_exchange, List.map_append]

namespace Form

theorem bindings_exchange (d : Dialect) (f : Form) :
    (f.exchange x).bindings d = (f.bindings d).map x.binding := by
  cases f with
  | select q | hasRows q => exact q.selectBindings_exchange x
  | writing w => exact w.bindings_exchange x d

theorem queries_exchange (f : Form) :
    (f.exchange x).queries = f.queries.map (Query.exchange x) := by
  cases f with
  | select q | hasRows q => rfl
  | writing w => cases w <;> rfl

theorem fault_exchange (f : Form) :
    (f.exchange x).queries.findSome? Query.fault = f.queries.findSome? Query.fault := by
  rw [queries_exchange, List.findSome?_map]
  exact congrArg (List.findSome? · f.queries) (funext fun q => q.fault_exchange x)

theorem expressions_exchange (d : Dialect) {f : Form} (truthful : ∀ q ∈ f.queries, q.Truthful) :
    (f.exchange x).expressions d = (f.expressions d).map x.expression := by
  have queries : (f.exchange x).queries.flatMap Query.expressions =
      (f.queries.flatMap Query.expressions).map x.expression := by
    rw [queries_exchange, List.flatMap_map, List.map_flatMap]
    refine List.flatMap_congr fun q member => ?_
    rw [q.expressions_exchange x, (truthful q member).expressions]
  have extra : (f.exchange x).extra d = (f.extra d).map x.expression := by
    cases f with
    | select q | hasRows q => rfl
    | writing w => exact w.extra_exchange x d
  rw [expressions, expressions, queries, extra, List.map_append]

end Form

end SqlFragments
