import SqlFragments.Binding
import SqlFragments.Grammar

/-!
# Expressions

An `Expression` is a fragment of SQL together with the bindings of its placeholders. Its text is
given, or found in a grammar table, or that of another expression. It is native, or it adapts a
fragment made elsewhere, with that fragment's bindings or without any.

Expressions are shared: two uses of one expression have one `Identity` and one table. The tables
live in `Tables`, because resolving a table changes what it remembers, and an expression names its
table by a `TableId`. A `Workspace` holds everything that expressions share, the tables, the cells
of deferred bindings and the next free identity; making an expression is work on it.

`Expression.resolve` reads the tables through a function, in any monad: `Tables.lookup` resolves
without remembering, `Tables.resolveAndKeep` is what runs.
-/

namespace SqlFragments

/-- What makes two uses of an expression the same one. -/
abbrev Identity := Nat

/-- The place of a grammar table. -/
abbrev TableId := Nat

/-- The grammar tables that expressions share. -/
structure Tables where
  entries : List Grammar := []
  deriving Inhabited

namespace Tables

/-- The table at a place; where there is none, an empty one. -/
def get (tables : Tables) (id : TableId) : Grammar :=
  tables.entries.getD id {}

/-- The tables with one replaced. -/
def put (tables : Tables) (id : TableId) (g : Grammar) : Tables :=
  ⟨tables.entries.set id g⟩

/-- The tables with one more, and its place. -/
def add (tables : Tables) (g : Grammar) : TableId × Tables :=
  (tables.entries.length, ⟨tables.entries ++ [g]⟩)

/-- Resolves a table for a context without remembering the result. -/
def lookup (tables : Tables) (ctx : Context) (id : TableId) : Except Error String :=
  ((tables.get id).resolveIn ctx).1

end Tables

/-- Work that may fail and that fills what the tables remember, also when it fails. -/
abbrev Resolution := ExceptT Error (StateM Tables)

/-- Resolves a table for a context and remembers the result. -/
def Tables.resolveAndKeep (ctx : Context) (id : TableId) : Resolution String := fun tables =>
  let (answer, g) := (tables.get id).resolveIn ctx
  (answer, tables.put id g)

/-- Where an expression comes from, with the bindings that it brings itself. -/
inductive Origin where
  | native (own : List Binding)
  | adapter
  | boundAdapter (supplied : List Binding)
  deriving DecidableEq, Repr

/-- A fragment of SQL with its bindings. -/
inductive Expression where
  | text (id : Identity) (origin : Origin) (sql : String)
  | grammar (id : Identity) (origin : Origin) (table : TableId)
  | layer (id : Identity) (origin : Origin) (inner : Expression)
  deriving DecidableEq, Repr

/-- What the text of an expression is made from. -/
inductive Payload where
  | text (sql : String)
  | grammar (table : TableId)
  | expression (inner : Expression)
  deriving DecidableEq, Repr

/-- What is known of an expression from how it was made. -/
structure Capabilities where
  bindings : Bool
  grammar : Bool
  deriving DecidableEq, Repr

/-- What is known of an expression, in a dump. -/
def Capabilities.dump (c : Capabilities) : String :=
  "Capabilities \x7b bindings: " ++ Value.boolText c.bindings ++ ", grammar: " ++
    Value.boolText c.grammar ++ " \x7d"

namespace Expression

/-- What makes two uses of the expression the same one. -/
def id : Expression → Identity
  | text id _ _ | grammar id _ _ | layer id _ _ => id

/-- Where the expression comes from. -/
def origin : Expression → Origin
  | text _ origin _ | grammar _ origin _ | layer _ origin _ => origin

/-- What the expression's text is made from. -/
def payload : Expression → Payload
  | text _ _ sql => .text sql
  | grammar _ _ table => .grammar table
  | layer _ _ inner => .expression inner

/-- Whether the text comes from a grammar table in the end. -/
def isGrammar : Expression → Bool
  | text _ _ _ => false
  | grammar _ _ _ => true
  | layer _ _ inner => inner.isGrammar

/-- Whether the expression was made to bring bindings: an adapter with bindings always is, even when
it supplies none. -/
def bringsBindings : Expression → Bool
  | text _ (.native own) _ | grammar _ (.native own) _ => !own.isEmpty
  | layer _ (.native own) inner => !own.isEmpty || inner.bringsBindings
  | text _ .adapter _ | grammar _ .adapter _ | layer _ .adapter _ => false
  | text _ (.boundAdapter _) _ | grammar _ (.boundAdapter _) _ | layer _ (.boundAdapter _) _ => true

/-- What is known of the expression from how it was made. -/
def capabilities (e : Expression) : Capabilities :=
  ⟨e.bringsBindings, e.isGrammar⟩

/-- Whether the expression adapts a fragment made elsewhere. -/
def isAdapter (e : Expression) : Bool :=
  match e.origin with
  | .native _ => false
  | _ => true

/-- Whether the expression is a native wrapper of another. -/
def isWrapper : Expression → Bool
  | layer _ (.native _) _ => true
  | _ => false

/-- Whether two uses are the same expression. -/
def same (a b : Expression) : Bool := a.id == b.id

/-- The text of the expression, where `table` gives the text of a table. -/
def resolve {m : Type → Type} [Monad m] (table : TableId → m String) : Expression → m String
  | text _ _ sql => pure sql
  | grammar _ _ t => table t
  | layer _ _ inner => inner.resolve table

/-- The bindings of the expression in order: a native wrapper has those of what it wraps before its
own, an adapter only those that it supplies. -/
def bindings : Expression → List Binding
  | text _ (.native own) _ | grammar _ (.native own) _ => own
  | layer _ (.native own) inner => inner.bindings ++ own
  | text _ .adapter _ | grammar _ .adapter _ | layer _ .adapter _ => []
  | text _ (.boundAdapter supplied) _ | grammar _ (.boundAdapter supplied) _
  | layer _ (.boundAdapter supplied) _ => supplied

/-- Whether the expression supplies a binding. An adapter finds out by evaluating its bindings. -/
def hasBindings : Expression → Evaluation Bool
  | text _ (.native own) _ | grammar _ (.native own) _ => pure !own.isEmpty
  | layer _ (.native own) inner => do
    if ← inner.hasBindings then return true
    return !own.isEmpty
  | text _ .adapter _ | grammar _ .adapter _ | layer _ .adapter _ => pure false
  | text _ (.boundAdapter supplied) _ | grammar _ (.boundAdapter supplied) _
  | layer _ (.boundAdapter supplied) _ => do
    let values ← Binding.evaluateAll supplied
    return !values.isEmpty

/-- Evaluates the bindings of the expression. -/
def evaluate (e : Expression) : Evaluation (List Value) :=
  Binding.evaluateAll e.bindings

/-- The expression without one redundant wrapper: a native wrapper without bindings of its own
stands for what it wraps. -/
def unwrapDouble : Expression → Expression
  | layer _ (.native []) inner => inner
  | e => e

end Expression

/-- Whether the payload needs a driver before it is text. -/
def Payload.isGrammar : Payload → Bool
  | text _ => false
  | grammar _ => true
  | expression inner => inner.isGrammar

/-- Everything that expressions share. -/
structure Workspace where
  tables : Tables := {}
  cells : Cells := {}
  next : Identity := 0
  deriving Inhabited

namespace Workspace

/-- A fresh identity. -/
def fresh : StateM Workspace Identity := fun w =>
  (w.next, { w with next := w.next + 1 })

/-- A place for a table of its own. -/
def share (g : Grammar) : StateM Workspace TableId := fun w =>
  let (id, tables) := w.tables.add g
  (id, { w with tables := tables })

/-- Evaluates on the cells of the workspace. -/
def evaluating {α : Type} (e : Evaluation α) : StateM Workspace α := fun w =>
  let (a, cells) := e.run w.cells
  (a, { w with cells := cells })

/-- Resolves on the tables of the workspace. -/
def resolving {α : Type} (r : Resolution α) : StateM Workspace (Except Error α) := fun w =>
  let (a, tables) := r.run.run w.tables
  (a, { w with tables := tables })

end Workspace

/-- A fragment made elsewhere: what its text is made from, and the bindings it supplies. Its text is
taken to be the same whenever it is asked for and the number of its bindings to be fixed, as they are
for every expression; only the values that the bindings come to change with the cells. -/
structure Foreign where
  payload : Payload
  supplied : List Binding

/-- What may be given to be adapted: a fragment made elsewhere, or an expression. -/
inductive Adaptable where
  | fragment (f : Foreign)
  | expression (e : Expression)

namespace Expression

/-- An expression of a payload. -/
def ofPayload (id : Identity) (origin : Origin) : Payload → Expression
  | .text sql => text id origin sql
  | .grammar table => grammar id origin table
  | .expression inner => layer id origin inner

/-- Makes an expression of a payload, with an identity of its own. -/
def make (origin : Origin) (payload : Payload) : StateM Workspace Expression := do
  return ofPayload (← Workspace.fresh) origin payload

/-- A native expression with a given text. -/
def raw (sql : String) (own : List Binding := []) : StateM Workspace Expression :=
  make (.native own) (.text sql)

/-- A native expression with the text of a table. -/
def ofGrammar (g : Grammar) (own : List Binding := []) : StateM Workspace Expression := do
  make (.native own) (.grammar (← Workspace.share g))

/-- A native wrapper of an expression. -/
def wrap (inner : Expression) : StateM Workspace Expression :=
  make (.native []) (.expression inner)

/-- Adapts a fragment made elsewhere and leaves out its bindings. -/
def adapt (f : Foreign) : StateM Workspace Expression :=
  make .adapter f.payload

/-- Adapts a fragment made elsewhere with its bindings. -/
def adaptWithBindings (f : Foreign) : StateM Workspace Expression :=
  make (.boundAdapter f.supplied) f.payload

/-- Adapts what is given without bindings. An expression is taken as it is, with its bindings, so
adapting twice never nests adapters. -/
def adaptAny : Adaptable → StateM Workspace Expression
  | .fragment f => adapt f
  | .expression e => pure e

/-- Adapts what is given with its bindings. An expression is taken as it is. -/
def adaptAnyWithBindings : Adaptable → StateM Workspace Expression
  | .fragment f => adaptWithBindings f
  | .expression e => pure e

/-- The text of the expression for a context; its table remembers what was found. -/
def resolveIn (ctx : Context) (e : Expression) : Resolution String :=
  e.resolve (Tables.resolveAndKeep ctx)

/-- The text of the expression where no context is given: the table's own driver and version decide.
-/
def resolveAmbient (e : Expression) : Resolution String :=
  e.resolveIn {}

/-- The text as people read it; an expression without text shows why it has none. -/
def display (e : Expression) : StateM Workspace String := do
  match ← Workspace.resolving e.resolveAmbient with
  | .ok sql => return sql
  | .error err => return "<" ++ err.message ++ ">"

/-- The fields of a dump that say where the expression comes from; `payload` is what its text is
made from. -/
def dumpOrigin (payload : String) : Origin → String
  | .native own => payload ++ ", bindings: [" ++ Text.commaList (own.map Binding.dump) ++ "]"
  | .adapter => "adapter: \"IsExpression\""
  | .boundAdapter _ => "adapter: \"IsExpression + HasBindings\""

/-- How the expression was made, with its table and its bindings; deferred bindings are not
evaluated. -/
def dump (tables : Tables) (e : Expression) : String :=
  let payload := match e with
    | text _ _ sql => "text: " ++ Text.quoted sql
    | grammar _ _ table => "grammar: " ++ (tables.get table).dump
    | layer _ _ inner => "wrapped: " ++ inner.dump tables
  "Expression \x7b " ++ dumpOrigin payload e.origin ++ ", capabilities: " ++
    e.capabilities.dump ++ " \x7d"

end Expression

end SqlFragments
