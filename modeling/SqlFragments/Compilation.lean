import SqlFragments.Placeholder
import SqlFragments.Query.Builder
import SqlFragments.Statement.Bindings
import SqlFragments.Statement.Text

/-!
# Compilation

A `Compiler` turns a query into a statement for one context, in phases: it resolves every expression
that needs a grammar table, writes the text, evaluates the bindings, and checks that there is one
for each placeholder. A compilation that fails before the third phase evaluates no binding.

`Compiler.compile` takes a `Request`, which says what the statement does, and a query. It is work on
a `Workspace`, and its `Run` tells the answer, the phases that were entered and the query, which may
have computed its index.
-/

namespace SqlFragments

/-- How placeholders are written in the end. -/
inductive PlaceholderStyle where
  | question
  | numbered
  deriving DecidableEq, Repr

/-- Whether the placeholders are counted against the bindings, and how they are written. -/
structure Settings where
  verify : Bool := true
  style : PlaceholderStyle := .question
  deriving DecidableEq, Repr

/-- A phase of a compilation. -/
inductive Phase where
  | idle
  | configuring
  | rendering
  | collecting
  | done
  deriving DecidableEq, Repr

/-- The phase in words. -/
def Phase.name : Phase → String
  | idle => "idle"
  | configuring => "configuring_expressions"
  | rendering => "rendering_text"
  | collecting => "collecting_bindings"
  | done => "done"

/-- What a compilation makes: a statement, or those that stand for one. -/
inductive Compiled where
  | one (s : Statement)
  | several (ss : List Statement)
  deriving DecidableEq, Repr

/-- What a compilation came to. The phases are those entered after `Phase.idle`, in order. -/
structure Run (α : Type) where
  answer : Except Error α
  phases : List Phase
  query : Query

/-- The run with another form of its answer. -/
def Run.map {α β : Type} (f : α → β) (r : Run α) : Run β :=
  ⟨r.answer.map f, r.phases, r.query⟩

/-- The changes of phase of a compilation. -/
def Run.transitions {α : Type} (r : Run α) : List (Phase × Phase) :=
  List.zip (.idle :: r.phases) r.phases

/-- The number of placeholders of a statement where a backslash is a character like any other. -/
def Statement.placeholderCount (s : Statement) : Nat :=
  countPlaceholders false s.sql

/-- The statement as JSON. -/
def Statement.json (s : Statement) : String :=
  "\x7b\"sql\":" ++ Text.jsonString s.sql ++ ",\"bindings\":[" ++
    Text.separated "," (s.bindings.map Value.json) ++ "]\x7d"

/-- Resolves every expression that needs a table and counts them. The first that cannot be resolved
is the error. -/
def configure (ctx : Context) : List Expression → Resolution Nat
  | [] => pure 0
  | e :: rest =>
    if e.isGrammar then do
      let _ ← e.resolveIn ctx
      let others ← configure ctx rest
      return others + 1
    else configure ctx rest

/-- What a statement does with a query. -/
inductive Request where
  | select
  | hasRows
  | aggregate (function : String) (columns : List String)
  | insert (rows : List Record)
  | insertOrIgnore (rows : List Record)
  | insertGetId (row : Record) (sequence : Option String)
  | insertUsing (columns : List String) (source : Query)
  | update (values : Record)
  | step (column : String) (down : Bool) (amount : Int64) (extra : Record)
  | upsert (rows : List Record) (uniqueBy update : List String) (given : Record)
  | delete
  | truncate

namespace Request

/-- What a request is called in the record of phases. -/
def operation : Request → String
  | select => "select"
  | hasRows => "exists"
  | aggregate _ _ => "aggregate"
  | insert _ => "insert"
  | insertOrIgnore _ => "insert_or_ignore"
  | insertGetId _ _ => "insert_get_id"
  | insertUsing _ _ => "insert_using"
  | update _ | step _ _ _ _ => "update"
  | upsert _ _ changed given =>
    if changed.isEmpty && given.isEmpty then "insert_or_ignore" else "upsert"
  | delete => "delete"
  | truncate => "truncate"

/-- The number of rows of a query. -/
def count : Request := aggregate "count" ["*"]

/-- A function of one column of a query. -/
def ofColumn (function column : String) : Request := aggregate function [column]

end Request

/-- Compiles queries for one context. -/
structure Compiler where
  context : Context
  dialect : Dialect
  settings : Settings := {}

namespace Compiler

/-- The compiler for a context, which has to name a driver with a dialect. -/
def forContext (context : Context) (settings : Settings := {}) : Except Error Compiler :=
  match context.driver with
  | none => .error (.invalid .contextWithoutDriver)
  | some driver => do return ⟨context, ← Dialect.ofDriver driver, settings⟩

/-- Checks a text against the values of its bindings and writes its placeholders in the wanted
style. -/
def finish (c : Compiler) (sql : String) (values : List Value) : Except Error Statement :=
  let placeholders := countPlaceholders c.dialect.escapesBackslash sql
  if c.settings.verify && placeholders != values.length then
    .error (.placeholderMismatch placeholders values.length sql)
  else
    match c.settings.style with
    | .question => .ok ⟨sql, values⟩
    | .numbered => .ok ⟨numberPlaceholders sql, values⟩

/-- Runs the phases of a compilation for a query, and for the queries it reads besides. -/
def run (c : Compiler) (q : Query) (others : List Query) (extra : List Expression)
    (write : Writer Resolution → Resolution String) (bindings : List Binding) :
    StateM Workspace (Run Statement) := fun w =>
  match (q :: others).findSome? Query.fault with
  | some fault => (⟨.error (.invalid fault), [.configuring], q⟩, w)
  | none =>
    let expressions := (q :: others).flatMap Query.expressions ++ extra
    match Workspace.resolving (configure c.context expressions) w with
    | (.error e, w) => (⟨.error e, [.configuring], q.indexed⟩, w)
    | (.ok _, w) =>
      match Workspace.resolving (write (.remembering c.dialect c.context)) w with
      | (.error e, w) => (⟨.error e, [.configuring, .rendering], q.indexed⟩, w)
      | (.ok sql, w) =>
        let (values, w) := Workspace.evaluating (Binding.evaluateAll bindings) w
        match c.finish sql values with
        | .error e => (⟨.error e, [.configuring, .rendering, .collecting], q.indexed⟩, w)
        | .ok s => (⟨.ok s, [.configuring, .rendering, .collecting, .done], q.indexed⟩, w)

/-- The rows that a query selects. -/
def select (c : Compiler) (q : Query) : StateM Workspace (Run Statement) :=
  c.run q [] [] (·.select q) q.selectBindings

/-- Whether a query has rows. -/
def hasRows (c : Compiler) (q : Query) : StateM Workspace (Run Statement) :=
  c.run q [] [] (·.hasRows q) q.selectBindings

/-- A function of columns of a query. The query itself does not change. -/
def aggregate (c : Compiler) (q : Query) (function : String) (columns : List String) :
    StateM Workspace (Run Statement) := do
  let a := q.withAggregate ⟨function, columns.map Ident.name⟩
  let r ← c.run a [] [] (·.select a) a.selectBindings
  return { r with query := q }

/-- The run that ends before its first phase. -/
def refuse (q : Query) (e : Error) : StateM Workspace (Run Statement) :=
  pure ⟨.error e, [], q⟩

/-- The insertion of rows. -/
def insert (c : Compiler) (q : Query) (rows : List Record) : StateM Workspace (Run Statement) :=
  match Record.normalizeRows rows with
  | .error e => refuse q e
  | .ok rows =>
    c.run q [] (rows.flatMap Record.expressions) (·.insert q rows) (q.insertBindings rows)

/-- The insertion of rows that are not there already. -/
def insertOrIgnore (c : Compiler) (q : Query) (rows : List Record) :
    StateM Workspace (Run Statement) :=
  match Record.normalizeRows rows with
  | .error e => refuse q e
  | .ok rows =>
    c.run q [] (rows.flatMap Record.expressions) (·.insertOrIgnore q rows) (q.insertBindings rows)

/-- The insertion of one row that reports its key, which is called `id` unless another name is
given. -/
def insertGetId (c : Compiler) (q : Query) (row : Record) (sequence : Option String) :
    StateM Workspace (Run Statement) :=
  c.run q [] row.expressions (·.insertGetId q row (sequence.getD "id")) (q.insertBindings [row])

/-- The insertion of the rows of a query. -/
def insertUsing (c : Compiler) (q : Query) (columns : List String) (source : Query) :
    StateM Workspace (Run Statement) :=
  c.run q [source] [] (·.insertUsing q columns source) (q.insertUsingBindings source)

/-- The change of columns of rows. -/
def update (c : Compiler) (q : Query) (values : Record) : StateM Workspace (Run Statement) :=
  c.run q [] values.expressions (·.update q values) (q.updateBindings values)

/-- The change of a column by an amount, and of further columns. -/
def step (c : Compiler) (q : Query) (column : String) (down : Bool) (amount : Int64)
    (extra : Record) : StateM Workspace (Run Statement) := do
  let changed ← Expression.raw (Writer.stepped c.dialect column down amount)
  c.update q (extra.setFirst column (.inline changed))

/-- The insertion of rows that changes those that are there already. With nothing to change it
leaves them out. -/
def upsert (c : Compiler) (q : Query) (rows : List Record) (uniqueBy update : List String)
    (given : Record) : StateM Workspace (Run Statement) :=
  if update.isEmpty && given.isEmpty then c.insertOrIgnore q rows
  else
    match Record.normalizeRows rows with
    | .error e => refuse q e
    | .ok rows =>
      c.run q [] (rows.flatMap Record.expressions ++ given.expressions)
        (·.upsert q rows uniqueBy update given) (q.upsertBindings rows given)

/-- The deletion of rows. -/
def delete (c : Compiler) (q : Query) : StateM Workspace (Run Statement) :=
  c.run q [] [] (·.delete q) q.deleteBindings

/-- The statements that empty the table of a query. -/
def truncate (c : Compiler) (q : Query) : Run (List Statement) :=
  match c.dialect.truncateQuery q with
  | .error e => ⟨.error e, [.configuring, .rendering], q⟩
  | .ok ss => ⟨.ok ss, [.configuring, .rendering, .collecting, .done], q⟩

/-- Compiles a query for a request. -/
def compile (c : Compiler) (q : Query) : Request → StateM Workspace (Run Compiled)
  | .select => Run.map .one <$> c.select q
  | .hasRows => Run.map .one <$> c.hasRows q
  | .aggregate function columns => Run.map .one <$> c.aggregate q function columns
  | .insert rows => Run.map .one <$> c.insert q rows
  | .insertOrIgnore rows => Run.map .one <$> c.insertOrIgnore q rows
  | .insertGetId row sequence => Run.map .one <$> c.insertGetId q row sequence
  | .insertUsing columns source => Run.map .one <$> c.insertUsing q columns source
  | .update values => Run.map .one <$> c.update q values
  | .step column down amount extra => Run.map .one <$> c.step q column down amount extra
  | .upsert rows uniqueBy update given => Run.map .one <$> c.upsert q rows uniqueBy update given
  | .delete => Run.map .one <$> c.delete q
  | .truncate => pure ((c.truncate q).map .several)

end Compiler

end SqlFragments
