import SqlFragments.Proofs.ExchangedText

/-!
# Values never reach the text

An exchange that keeps what expressions resolve to keeps every outcome: rows are put in order by
their columns, the text is written the same, and of the bindings only the number counts
(`Compiler.outcome_exchange`). The `outline` is such an exchange. It leaves nothing of a bound value
but that it is there, nothing of the identity of an expression, and of its table a name for what the
table holds. So two requests with one outline come to the same texts or to the same error, whatever
is bound in them (`Compiler.same_outline_same_outcome`).
-/

namespace SqlFragments

variable (x : Exchange)

/-! ## Rows -/

namespace Record

theorem get?_exchange (r : Record) (column : String) :
    (r.exchange x).get? column = (r.get? column).map (Operand.exchange x) := by
  simp only [get?, exchange]
  induction r.entries with
  | nil => rfl
  | cons entry rest ih =>
    rw [List.map_cons, List.lookup_cons, exchangeEntry, List.lookup_cons]
    cases column == entry.1
    · exact ih
    · rfl

theorem set_exchange (r : Record) (column : String) (value : Operand) :
    (r.exchange x).set column (value.exchange x) = (r.set column value).exchange x := by
  refine Record.ext ?_
  simp only [set, exchange]
  induction r.entries with
  | nil => rfl
  | cons entry rest ih =>
    rw [List.map_cons, exchangeEntry, setEntry, setEntry, ih]
    split <;> rfl

theorem ofList_exchange (settings : List (String × Operand)) :
    ofList (settings.map (exchangeEntry x)) = (ofList settings).exchange x := by
  -- A record is filled from the left, so the induction is for any record to start with.
  have onto : ∀ r : Record,
      (settings.map (exchangeEntry x)).foldl (fun r entry => r.set entry.1 entry.2) (r.exchange x) =
        (settings.foldl (fun r entry => r.set entry.1 entry.2) r).exchange x := by
    induction settings with
    | nil => exact fun r => rfl
    | cons entry rest ih =>
      intro r
      rw [List.map_cons, List.foldl_cons, List.foldl_cons, exchangeEntry, set_exchange, ih]
  exact onto {}

theorem pick_exchange (row : Nat) (r : Record) (columns : List String) :
    (r.exchange x).pick row columns = (r.pick row columns).map (List.map (exchangeEntry x)) := by
  induction columns with
  | nil => rfl
  | cons column rest ih =>
    rw [pick, pick, get?_exchange, ih]
    cases r.get? column with
    | none => rfl
    | some value => cases r.pick row rest <;> rfl

theorem reorder_exchange (row : Nat) (columns : List String) (r : Record) :
    (r.exchange x).reorder row columns = (r.reorder row columns).map (exchange x) := by
  have size : (r.exchange x).size = r.size := List.length_map _
  rw [reorder, reorder, size, pick_exchange]
  split
  · cases r.pick row columns with
    | error e => rfl
    | ok values => exact congrArg Except.ok (ofList_exchange x values)
  · rfl

theorem reorderAll_exchange (columns : List String) (row : Nat) (rows : List Record) :
    reorderAll columns row (rows.map (exchange x)) =
      (reorderAll columns row rows).map (List.map (exchange x)) := by
  induction rows generalizing row with
  | nil => rfl
  | cons r rest ih =>
    rw [List.map_cons, reorderAll, reorderAll, reorder_exchange, ih]
    cases r.reorder row columns with
    | error e => rfl
    | ok first => cases reorderAll columns (row + 1) rest <;> rfl

/-- The order of columns does not depend on what stands in them. -/
theorem normalizeRows_exchange (rows : List Record) :
    normalizeRows (rows.map (exchange x)) =
      (normalizeRows rows).map (List.map (exchange x)) := by
  cases rows with
  | nil => rfl
  | cons first rest =>
    have columns := first.columns_exchange x
    have reordered := reorderAll_exchange x first.columns 0 (first :: rest)
    rw [List.map_cons] at reordered ⊢
    rw [normalizeRows, normalizeRows, columns, reordered]

end Record

/-! ## Requests -/

theorem Writing.ofRequest_exchange (q : Query) (id : Identity) (r : Request) :
    ofRequest (q.exchange x) (x.identity id) (r.exchange x) =
      (ofRequest q id r).map (Option.map (exchange x)) := by
  have rows := Record.normalizeRows_exchange x
  cases r with
  | select | hasRows | aggregate | insertGetId | insertUsing | update | step | delete
  | truncate => rfl
  | insert rs | insertOrIgnore rs =>
    simp only [Request.exchange, ofRequest, rows]
    cases Record.normalizeRows rs <;> rfl
  | upsert rs uniqueBy changed given =>
    simp only [Request.exchange, ofRequest, rows, given.isEmpty_exchange x]
    split <;> cases Record.normalizeRows rs <;> rfl

theorem Query.withAggregate_exchange (q : Query) (function : String) (columns : List String) :
    (q.exchange x).withAggregate ⟨function, columns.map Ident.name⟩ =
      (q.withAggregate ⟨function, columns.map Ident.name⟩).exchange x := by
  have names : (columns.map Ident.name).map (Ident.exchange x) = columns.map Ident.name := by
    rw [List.map_map]
    rfl
  obtain ⟨slots, us, index, fault⟩ := q
  simp only [withAggregate, edit, exchange, Slots.exchange, Option.map_some, Aggregate.exchange,
    names]

namespace Form

theorem ofRequest_exchange (q : Query) (id : Identity) (r : Request) :
    ofRequest (q.exchange x) (x.identity id) (r.exchange x) =
      (ofRequest q id r).map (Option.map (exchange x)) := by
  have writing := Writing.ofRequest_exchange x q id r
  cases r with
  | select | hasRows => rfl
  | aggregate function columns =>
    simp only [Request.exchange, ofRequest, q.withAggregate_exchange x]
    rfl
  | insert | insertOrIgnore | insertGetId | insertUsing | update | step | upsert | delete
  | truncate =>
    simp only [Request.exchange] at writing
    simp only [Request.exchange, ofRequest, writing]
    rcases Writing.ofRequest q id _ with e | - | w <;> rfl

/-- **Verdicts.** A form comes to what it comes to with its expressions exchanged for others that
resolve alike. -/
theorem verdict_exchange (c : Compiler) {f : Form} (truthful : ∀ q ∈ f.queries, q.Truthful)
    {T T' : Tables}
    (alike : ∀ e, (x.expression e).resolve (T'.lookup c.context) = e.resolve (T.lookup c.context)) :
    (f.exchange x).verdict c T' = f.verdict c T := by
  have between : x.Between (.reading c.dialect c.context T) (.reading c.dialect c.context T') :=
    ⟨rfl, alike⟩
  have resolved : ∀ es : List Expression,
      configured (T'.lookup c.context) (es.map x.expression) =
        configured (T.lookup c.context) es := by
    intro es
    induction es with
    | nil => rfl
    | cons e es ih => rw [List.map_cons, configured, configured, x.isGrammar_expression, alike, ih]
  unfold verdict
  rw [f.bindings_exchange x, List.length_map, f.fault_exchange x,
    f.expressions_exchange x c.dialect truthful, resolved, between.form]

end Form

namespace Compiler

variable (c : Compiler) {q : Query} {r : Request}

theorem truncate_exchange :
    (c.truncate (q.exchange x)).outcome (List.map Statement.sql) =
      (c.truncate q).outcome (List.map Statement.sql) := by
  have same : c.dialect.truncateQuery (q.exchange x) = c.dialect.truncateQuery q := by
    rw [Dialect.truncateQuery, Dialect.truncateQuery, Query.slots_exchange, Slots.exchange]
    rcases q.slots.table with - | ⟨n | f⟩ <;> rfl
  unfold truncate
  rw [same]
  cases c.dialect.truncateQuery q <;> rfl

/-- **Outcomes.** A request comes to what it comes to with its expressions exchanged for others that
resolve alike. -/
theorem outcome_exchange (h : q.Truthful) (sources : ∀ s ∈ r.sources, s.Truthful) {T T' : Tables}
    (alike : ∀ e, (x.expression e).resolve (T'.lookup c.context) = e.resolve (T.lookup c.context))
    (id : Identity) :
    c.outcome (q.exchange x) (r.exchange x) T' (x.identity id) = c.outcome q r T id := by
  rw [outcome, outcome, Form.ofRequest_exchange]
  rcases made : Form.ofRequest q id r with e | - | f
  · rfl
  · exact c.truncate_exchange x
  · have truthful := Form.truthful_of_request h sources made
    simp only [Except.map, Option.map_some, Form.verdict_exchange x c truthful alike]

end Compiler

/-! ## Outlines -/

/-- What an outline leaves of a bound value: that it is there. -/
def Binding.blank (_ : Binding) : Binding := .literal .null

/-- Where an expression comes from, with its bindings blank. -/
def Origin.outline : Origin → Origin
  | native own => native (own.map Binding.blank)
  | adapter => adapter
  | boundAdapter supplied => boundAdapter (supplied.map Binding.blank)

/-- The expression without its identity and its values. Its table goes by the name that `place` gives
to the place of the table. -/
def Expression.outline (place : TableId → TableId) : Expression → Expression
  | text _ origin sql => text 0 origin.outline sql
  | grammar _ origin table => grammar 0 origin.outline (place table)
  | layer _ origin inner => layer 0 origin.outline (inner.outline place)

namespace Expression

variable (place : TableId → TableId)

theorem bindings_outline (e : Expression) :
    (e.outline place).bindings = e.bindings.map Binding.blank := by
  induction e with
  | text id origin sql | grammar id origin table => cases origin <;> rfl
  | layer id origin inner ih =>
    cases origin with
    | native own => simp only [outline, Origin.outline, bindings, ih, List.map_append]
    | adapter | boundAdapter supplied => rfl

theorem isGrammar_outline (e : Expression) : (e.outline place).isGrammar = e.isGrammar := by
  induction e with
  | text | grammar => rfl
  | layer id origin inner ih => exact ih

/-- An outline resolves like the expression where its tables hold what the names stand for. -/
theorem resolve_outline {table table' : TableId → Except Error String}
    (alike : ∀ id, table' (place id) = table id) (e : Expression) :
    (e.outline place).resolve table' = e.resolve table := by
  induction e with
  | text => rfl
  | grammar id origin t => exact alike t
  | layer id origin inner ih => exact ih

end Expression

/-- The exchange of expressions for their outlines, and of bound values for blanks. -/
def Exchange.outline (place : TableId → TableId) : Exchange where
  identity _ := 0
  expression := Expression.outline place
  binding := Binding.blank
  bindings_expression := Expression.bindings_outline place
  isGrammar_expression := Expression.isGrammar_outline place
  expression_text _ _ := rfl

/-- The query without identities and values, and with nothing remembered. -/
def Query.outline (q : Query) (place : TableId → TableId) : Query := q.exchange (.outline place)

/-- The request without identities and values. -/
def Request.outline (r : Request) (place : TableId → TableId) : Request :=
  r.exchange (.outline place)

namespace Compiler

variable (c : Compiler)

/-- A compilation comes to what its outline comes to. -/
theorem compile_outline {q : Query} {r : Request} {w : Workspace} {place : TableId → TableId}
    {T : Tables} (h : q.Truthful) (sources : ∀ s ∈ r.sources, s.Truthful)
    (tables : ∀ id, T.lookup c.context (place id) = w.tables.lookup c.context id) :
    (c.compile q r w).1.outcome Compiled.texts =
      c.outcome (q.outline place) (r.outline place) T 0 := by
  rw [compile_outcome]
  exact (c.outcome_exchange (.outline place) h sources
    (Expression.resolve_outline place tables) w.next).symm

/-- **Values never reach the text.** Two built queries with requests of one outline, in workspaces
whose tables hold the same under the names that the outlines give them, come to the same texts, or
to the same error in the same phase; the values behind the bindings, the cells that deferred
bindings read and what is remembered do not matter. -/
theorem same_outline_same_outcome {q q' : Query} {r r' : Request} {w w' : Workspace}
    {place place' : TableId → TableId} {T : Tables} (built : q.Built) (built' : q'.Built)
    (sources : ∀ s ∈ r.sources, s.Built) (sources' : ∀ s ∈ r'.sources, s.Built)
    (query : q.outline place = q'.outline place')
    (request : r.outline place = r'.outline place')
    (tables : ∀ id, T.lookup c.context (place id) = w.tables.lookup c.context id)
    (tables' : ∀ id, T.lookup c.context (place' id) = w'.tables.lookup c.context id) :
    (c.compile q r w).1.outcome Compiled.texts = (c.compile q' r' w').1.outcome Compiled.texts := by
  have first := c.compile_outline built.truthful (fun s member => (sources s member).truthful) tables
  have second :=
    c.compile_outline built'.truthful (fun s member => (sources' s member).truthful) tables'
  rw [first, second, query, request]

/-- A search by a name, above a price that a table writes. -/
def search (id : Identity) (table : TableId) (name price : Binding) : Query :=
  ((Query.onTable (.name "orders")).addWhere (.compare .and (.name "name") "=" (.bound name))).addWhere
    (.compare .and (.name "price") ">" (.inline (.grammar id (.native [price]) table)))

theorem search_built (id : Identity) (table : TableId) (name price : Binding) :
    (search id table name price).Built :=
  ((Query.Built.empty.fromTable (.name "orders")).addWhere _).addWhere _

/-- The names of two tables that have changed places. -/
def swapped (id : TableId) : TableId := if id = 1 then 0 else 1

/-- A literal that looks like SQL and a binding that is read from a cell, in workspaces that keep the
table of prices at different places. -/
theorem search_same_outcome :
    let c : Compiler := ⟨⟨some .mysql, none⟩, .mysql, {}⟩
    let prices : Grammar := Grammar.register {} .mysql "coalesce(?, 0)"
    (c.compile (search 3 0 (.literal (.text "' or 1 = 1 -- ")) (.literal (.int 5))) .select
      ⟨⟨[prices]⟩, {}, 4⟩).1.outcome Compiled.texts =
    (c.compile (search 8 1 (.deferred (.counting "names")) (.literal .null)) .select
      ⟨⟨[{}, prices]⟩, {}, 9⟩).1.outcome Compiled.texts := by
  intro c prices
  have query : (search 3 0 (.literal (.text "' or 1 = 1 -- ")) (.literal (.int 5))).outline id =
      (search 8 1 (.deferred (.counting "names")) (.literal .null)).outline swapped := rfl
  have request : Request.select.outline id = Request.select.outline swapped := rfl
  have tables (place : TableId) : Tables.lookup ⟨[prices]⟩ c.context (id place) =
      Tables.lookup ⟨[prices]⟩ c.context place := rfl
  have swappedTables (place : TableId) : Tables.lookup ⟨[prices]⟩ c.context (swapped place) =
      Tables.lookup ⟨[{}, prices]⟩ c.context place := by
    rcases place with - | - | place <;> rfl
  exact c.same_outline_same_outcome (search_built _ _ _ _) (search_built _ _ _ _)
    (List.forall_mem_nil _) (List.forall_mem_nil _) query request tables swappedTables

end Compiler

end SqlFragments
