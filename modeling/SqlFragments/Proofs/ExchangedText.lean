import SqlFragments.Proofs.Exchange

/-!
# The text after an exchange

A writer looks at no bound value: for each it writes `?`. So what a writer makes of exchanged slots
is what another makes of the slots, as soon as the first writes every exchanged expression as the
second writes the expression (`Exchange.Between`). There is one lemma for each function of a writer,
up to statements (`Exchange.Between.form`).
-/

namespace SqlFragments

/-- `v` writes an exchanged expression as `w` writes the expression. -/
structure Exchange.Between (x : Exchange) (w v : Writer (Except Error)) : Prop where
  dialect : v.dialect = w.dialect
  expression : ∀ e, v.expression (x.expression e) = w.expression e

theorem Predicate.isEmpty_exchangeAll (x : Exchange) (ps : List Predicate) :
    (exchangeAll x ps).isEmpty = ps.isEmpty := by
  cases ps <;> rfl

theorem Record.columns_exchange (x : Exchange) (r : Record) :
    (r.exchange x).columns = r.columns := by
  rw [columns, exchange, List.map_map]
  rfl

theorem Record.isEmpty_exchange (x : Exchange) (r : Record) :
    (r.exchange x).isEmpty = r.isEmpty := by
  rw [isEmpty, exchange, List.isEmpty_map, isEmpty]

namespace Exchange.Between

variable {x : Exchange} {w v : Writer (Except Error)}

theorem ident (h : x.Between w v) (i : Ident) : v.ident (i.exchange x) = w.ident i := by
  cases i with
  | name n => simp only [Ident.exchange, Writer.ident, h.dialect]
  | raw f => exact h.expression f.expression

theorem columns (h : x.Between w v) (cs : List Ident) :
    v.columns (cs.map (Ident.exchange x)) = w.columns cs := by
  rw [Writer.columns, Writer.columns, Writer.each_map h.ident]

theorem columnsOrAll (h : x.Between w v) (cs : List Ident) :
    v.columnsOrAll (cs.map (Ident.exchange x)) = w.columnsOrAll cs := by
  rw [Writer.columnsOrAll, Writer.columnsOrAll, List.isEmpty_map, h.columns]

theorem operand (h : x.Between w v) (o : Operand) :
    v.operand (o.exchange x) = w.operand o := by
  cases o with
  | bound b => rfl
  | inline e => exact h.expression e

theorem table (h : x.Between w v) (q : Query) : v.table (q.exchange x) = w.table q := by
  rw [Writer.table, Writer.table, Query.slots_exchange, Slots.exchange]
  cases q.slots.table with
  | none => rfl
  | some t => exact h.ident t

mutual

theorem predicate (h : x.Between w v) : ∀ p : Predicate,
    v.predicate (p.exchange x) = w.predicate p
  | .compare _ column operator value => by
    simp only [Predicate.exchange, Writer.predicate, h.ident, h.operand]
  | .raw _ fragment => h.expression fragment.expression
  | .among _ column negated values => by
    simp only [Predicate.exchange, Writer.predicate, List.isEmpty_map, Writer.each_map h.operand,
      h.ident]
  | .null _ column negated => by
    simp only [Predicate.exchange, Writer.predicate, h.ident]
  | .between _ column negated low high => by
    simp only [Predicate.exchange, Writer.predicate, h.ident, h.operand]
  | .columns _ first operator second => by
    simp only [Predicate.exchange, Writer.predicate, h.ident]
  | .nested _ members => by
    simp only [Predicate.exchange, Writer.predicate, predicates h members]
  | .dated _ part column operator value => by
    simp only [Predicate.exchange, Writer.predicate, h.ident, h.operand, h.dialect]

theorem predicates (h : x.Between w v) : ∀ ps : List Predicate,
    v.predicates (Predicate.exchangeAll x ps) = w.predicates ps
  | [] => rfl
  | p :: ps => by
    rw [Predicate.exchangeAll, Writer.predicates, Writer.predicates, predicate h p, followers h ps]

theorem followers (h : x.Between w v) : ∀ ps : List Predicate,
    v.followers (Predicate.exchangeAll x ps) = w.followers ps
  | [] => rfl
  | p :: ps => by
    have link : (p.exchange x).link = p.link := by
      cases p <;> rfl
    rw [Predicate.exchangeAll, Writer.followers, Writer.followers, predicate h p, followers h ps,
      link]

end


theorem join (h : x.Between w v) (j : Join) : v.join (j.exchange x) = w.join j := by
  simp only [Writer.join, Join.exchange, h.ident, h.predicates, Predicate.isEmpty_exchangeAll]

theorem joins (h : x.Between w v) (js : List Join) :
    v.joins (js.map (Join.exchange x)) = w.joins js := by
  induction js with
  | nil => rfl
  | cons j js ih => rw [List.map_cons, Writer.joins, Writer.joins, h.join, ih]

theorem order (h : x.Between w v) (o : Order) : v.order (o.exchange x) = w.order o := by
  cases o with
  | column c descending => simp only [Order.exchange, Writer.order, h.ident]
  | raw f => exact h.expression f.expression

theorem orderBy (h : x.Between w v) (orders : List Order) :
    v.orderBy (orders.map (Order.exchange x)) = w.orderBy orders := by
  rw [Writer.orderBy, Writer.orderBy, List.isEmpty_map, Writer.each_map h.order]

theorem whereClause (h : x.Between w v) (wheres : List Predicate) :
    v.whereClause (Predicate.exchangeAll x wheres) = w.whereClause wheres := by
  rw [Writer.whereClause, Writer.whereClause, Predicate.isEmpty_exchangeAll, h.predicates]

theorem aggregateCall (h : x.Between w v) (a : Aggregate) (distinct : Distinct) :
    v.aggregateCall (a.exchange x) distinct = w.aggregateCall a distinct := by
  simp only [Writer.aggregateCall, Aggregate.exchange, h.columnsOrAll, h.dialect]

theorem selection (h : x.Between w v) (s : Slots) :
    v.selection (s.exchange x) = w.selection s := by
  have distinct : v.distinct s.distinct = w.distinct s.distinct := by
    cases s.distinct with
    | none | all => rfl
    | on columns => simp only [Writer.distinct, h.dialect]
  simp only [Writer.selection, Slots.exchange, Paging.exchange, h.columnsOrAll, h.dialect, distinct]

theorem source (h : x.Between w v) (s : Slots) : v.source (s.exchange x) = w.source s := by
  rw [Writer.source, Writer.source, Slots.exchange]
  cases s.table with
  | none => rfl
  | some t => simp only [Option.map_some, h.ident, h.dialect]

theorem selected (h : x.Between w v) (s : Slots) (aggregated : Bool) :
    v.selected (s.exchange x) aggregated = w.selected s aggregated := by
  have selection := h.selection s
  have aggregate : (s.exchange x).aggregate = s.aggregate.map (Aggregate.exchange x) := rfl
  unfold Writer.selected
  rw [aggregate]
  cases s.aggregate with
  | none =>
    simp only [Option.map_none, selection, h.dialect]
    rfl
  | some a =>
    cases aggregated with
    | true =>
      have call := h.aggregateCall a s.distinct
      simp only [Option.map_some, Slots.exchange, Paging.exchange, call]
    | false =>
      simp only [Option.map_some, selection, h.dialect]
      rfl

theorem components (h : x.Between w v) (s : Slots) (aggregated : Bool) :
    v.components (s.exchange x) aggregated = w.components s aggregated := by
  rw [Writer.components, Writer.components, h.selected, h.source]
  simp only [Slots.exchange, Paging.exchange, h.joins, h.whereClause, h.columns, h.predicates,
    h.orderBy, h.dialect, List.isEmpty_map, Predicate.isEmpty_exchangeAll]

mutual

theorem select (h : x.Between w v) : ∀ q : Query, v.select (q.exchange x) = w.select q
  | ⟨slots, [], _, _⟩ => by
    rw [Query.exchange, Query.exchangeMembers, Writer.select, Writer.select, h.components]
  | ⟨slots, (all, q) :: us, _, _⟩ => by
    have others := members h ((all, q) :: us)
    rw [Query.exchangeMembers] at others
    rw [Query.exchange, Query.exchangeMembers, Writer.select, Writer.select, h.components, others]
    simp only [Slots.exchange, Paging.exchange, h.orderBy, h.dialect, List.isEmpty_map]
    cases slots.aggregate with
    | none => rfl
    | some a => simp only [Option.map_some, h.aggregateCall]

theorem members (h : x.Between w v) : ∀ us : List (Bool × Query),
    v.members (Query.exchangeMembers x us) = w.members us
  | [] => rfl
  | (all, q) :: us => by
    rw [Query.exchangeMembers, Writer.members, Writer.members, select h q, members h us, h.dialect]

end

theorem hasRows (h : x.Between w v) (q : Query) : v.hasRows (q.exchange x) = w.hasRows q := by
  rw [Writer.hasRows, Writer.hasRows, h.select, h.dialect]

theorem row (h : x.Between w v) (r : Record) : v.row (r.exchange x) = w.row r := by
  have values : Writer.each (fun entry => v.operand entry.2) (r.exchange x).entries =
      Writer.each (fun entry => w.operand entry.2) r.entries := by
    refine Writer.each_map ?_ r.entries
    exact fun entry => h.operand entry.2
  rw [Writer.row, Writer.row, values]

theorem insert (h : x.Between w v) (q : Query) (rows : List Record) :
    v.insert (q.exchange x) (rows.map (Record.exchange x)) = w.insert q rows := by
  have tuples := Writer.each_map h.row rows
  rw [Writer.insert, Writer.insert, h.table, h.dialect]
  cases rows with
  | nil => rfl
  | cons first rest =>
    rw [List.map_cons] at tuples ⊢
    simp only [tuples, Record.isEmpty_exchange, Record.columns_exchange]

theorem insertOrIgnore (h : x.Between w v) (q : Query) (rows : List Record) :
    v.insertOrIgnore (q.exchange x) (rows.map (Record.exchange x)) = w.insertOrIgnore q rows := by
  rw [Writer.insertOrIgnore, Writer.insertOrIgnore, h.insert, h.dialect]

theorem insertGetId (h : x.Between w v) (q : Query) (r : Record) (sequence : String) :
    v.insertGetId (q.exchange x) (r.exchange x) sequence = w.insertGetId q r sequence := by
  have inserted := h.insert q [r]
  rw [List.map_singleton] at inserted
  rw [Writer.insertGetId, Writer.insertGetId, inserted, h.dialect]

theorem insertUsing (h : x.Between w v) (q : Query) (columns : List String) (source : Query) :
    v.insertUsing (q.exchange x) columns (source.exchange x) = w.insertUsing q columns source := by
  rw [Writer.insertUsing, Writer.insertUsing, h.table, h.select, h.dialect]

theorem assignments (h : x.Between w v) (entries : List (String × Operand)) :
    v.assignments (entries.map (Record.exchangeEntry x)) = w.assignments entries := by
  induction entries with
  | nil => rfl
  | cons entry rest ih =>
    rw [List.map_cons, Record.exchangeEntry, Writer.assignments, Writer.assignments, h.operand, ih,
      h.dialect]

theorem upsert (h : x.Between w v) (q : Query) (rows : List Record)
    (uniqueBy changed : List String) (given : Record) :
    v.upsert (q.exchange x) (rows.map (Record.exchange x)) uniqueBy changed (given.exchange x) =
      w.upsert q rows uniqueBy changed given := by
  have assignments := h.assignments given.entries
  rw [Writer.upsert, Writer.upsert, h.insert, Record.exchange, assignments, h.dialect]

theorem checkMutation (h : x.Between w v) (s : Slots) (mutation : Mutation) :
    v.checkMutation (s.exchange x) mutation = w.checkMutation s mutation := by
  simp only [Writer.checkMutation, Slots.exchange, Paging.exchange, List.isEmpty_map, h.dialect]

theorem assignment (h : x.Between w v) (column : String) (value : Operand) :
    v.assignment column (value.exchange x) = w.assignment column value := by
  rw [Writer.assignment, Writer.assignment, h.operand, h.dialect]

theorem mutationTail (h : x.Between w v) (s : Slots) :
    v.mutationTail (s.exchange x) = w.mutationTail s := by
  simp only [Writer.mutationTail, Slots.exchange, Paging.exchange, h.whereClause, h.orderBy]

theorem update (h : x.Between w v) (q : Query) (values : Record) :
    v.update (q.exchange x) (values.exchange x) = w.update q values := by
  have assignments :
      Writer.each (fun entry => v.assignment entry.1 entry.2) (values.exchange x).entries =
        Writer.each (fun entry => w.assignment entry.1 entry.2) values.entries := by
    refine Writer.each_map ?_ values.entries
    exact fun entry => h.assignment entry.1 entry.2
  have joins : v.joins (q.slots.exchange x).joins = w.joins q.slots.joins := h.joins q.slots.joins
  rw [Writer.update, Writer.update, assignments, h.table, Record.isEmpty_exchange,
    Query.slots_exchange, joins, h.checkMutation, h.mutationTail]

theorem delete (h : x.Between w v) (q : Query) : v.delete (q.exchange x) = w.delete q := by
  have joins : v.joins (q.slots.exchange x).joins = w.joins q.slots.joins := h.joins q.slots.joins
  have joined : (q.slots.exchange x).joins.isEmpty = q.slots.joins.isEmpty := List.isEmpty_map
  have target : ∀ table, v.target (q.exchange x) table = w.target q table := by
    intro table
    rw [Writer.target, Writer.target, Query.slots_exchange, Slots.exchange]
    rcases q.slots.table with - | ⟨n | f⟩
    · rfl
    · simp only [Option.map_some, Ident.exchange, h.dialect]
    · rfl
  simp only [Writer.delete, target, h.table, Query.slots_exchange, joins, joined, h.checkMutation,
    h.mutationTail]

theorem writing (h : x.Between w v) (y : Writing) : (y.exchange x).write v = y.write w := by
  cases y with
  | insert q rows => exact h.insert q rows
  | insertOrIgnore q rows => exact h.insertOrIgnore q rows
  | insertGetId q row sequence => exact h.insertGetId q row sequence
  | insertUsing q columns source => exact h.insertUsing q columns source
  | update q values => exact h.update q values
  | step q id column down amount extra =>
    simp only [Writing.exchange, Writing.write, Record.stepped_exchange, h.update, h.dialect]
  | upsert q rows uniqueBy changed given => exact h.upsert q rows uniqueBy changed given
  | delete q => exact h.delete q

/-- An exchanged statement is written like the statement. -/
theorem form (h : x.Between w v) (f : Form) : (f.exchange x).write v = f.write w := by
  cases f with
  | select q => exact h.select q
  | hasRows q => exact h.hasRows q
  | writing y => exact h.writing y

end Exchange.Between

end SqlFragments
