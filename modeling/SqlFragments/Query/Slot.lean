import SqlFragments.Expression

/-!
# What stands in the slots of a query

The parts that a query is put together from: columns and tables, which are names or raw fragments;
values, which are bound or written inline; and the predicates, joins and orders made of them. For
each part `bindings` lists its bindings in the order in which its text has placeholders, and
`expressions` the expressions that its text is made with.
-/

namespace SqlFragments

/-- A value in a slot: bound to a placeholder, or an expression written in its place. -/
inductive Operand where
  | bound (b : Binding)
  | inline (e : Expression)
  deriving Repr

namespace Operand

/-- The operand that writes an expression, without a redundant wrapper. -/
def ofExpression (e : Expression) : Operand := inline e.unwrapDouble

/-- The expression, if the value is one. -/
def expression? : Operand → Option Expression
  | bound _ => none
  | inline e => some e

/-- Whether the value is a literal NULL. -/
def isNull : Operand → Bool
  | bound b => b.isNull
  | inline _ => false

/-- The bindings of the value. -/
def bindings : Operand → List Binding
  | bound b => [b]
  | inline e => e.bindings

end Operand

/-- An expression written as it is, with further bindings for its placeholders after its own. -/
structure RawFragment where
  expression : Expression
  extra : List Binding := []
  deriving Repr

namespace RawFragment

/-- The fragment of an expression, without a redundant wrapper. -/
def ofExpression (e : Expression) (extra : List Binding := []) : RawFragment :=
  ⟨e.unwrapDouble, extra⟩

/-- The expression's bindings, then the further ones. -/
def bindings (f : RawFragment) : List Binding :=
  f.expression.bindings ++ f.extra

end RawFragment

/-- A column or a table: a name, which gets quoted, or a fragment written as it is. -/
inductive Ident where
  | name (name : String)
  | raw (fragment : RawFragment)
  deriving Repr

namespace Ident

/-- The expression, if the column or table is one. -/
def expression? : Ident → Option Expression
  | name _ => none
  | raw f => some f.expression

/-- The bindings of a fragment; a name has none. -/
def bindings : Ident → List Binding
  | name _ => []
  | raw f => f.bindings

end Ident

/-- How a predicate is joined to the one before it. -/
inductive Connective where
  | and
  | or
  deriving DecidableEq, Repr

/-- The connective as a word. -/
def Connective.word : Connective → String
  | and => "and"
  | or => "or"

/-- The part of a date that a predicate compares. -/
inductive DatePart where
  | date
  | time
  | day
  | month
  | year
  deriving DecidableEq, Repr

/-- The part as a word. -/
def DatePart.word : DatePart → String
  | date => "date"
  | time => "time"
  | day => "day"
  | month => "month"
  | year => "year"

/-- A condition on rows. -/
inductive Predicate where
  | compare (link : Connective) (column : Ident) (operator : String) (value : Operand)
  | raw (link : Connective) (fragment : RawFragment)
  | among (link : Connective) (column : Ident) (negated : Bool) (values : List Operand)
  | null (link : Connective) (column : Ident) (negated : Bool)
  | between (link : Connective) (column : Ident) (negated : Bool) (low high : Operand)
  | columns (link : Connective) (first : Ident) (operator : String) (second : Ident)
  | nested (link : Connective) (members : List Predicate)
  | dated (link : Connective) (part : DatePart) (column : Ident) (operator : String)
    (value : Operand)

namespace Predicate

/-- How the predicate is joined to the one before it. -/
def link : Predicate → Connective
  | compare link .. | raw link .. | among link .. | null link .. | between link ..
  | columns link .. | nested link .. | dated link .. => link

mutual

/-- The bindings of the predicate. -/
def bindings : Predicate → List Binding
  | compare _ column _ value | dated _ _ column _ value => column.bindings ++ value.bindings
  | raw _ fragment => fragment.bindings
  | among _ column _ values => column.bindings ++ values.flatMap Operand.bindings
  | null _ column _ => column.bindings
  | between _ column _ low high => column.bindings ++ low.bindings ++ high.bindings
  | columns _ first _ second => first.bindings ++ second.bindings
  | nested _ members => bindingsOfAll members

/-- The bindings of predicates in a row. -/
def bindingsOfAll : List Predicate → List Binding
  | [] => []
  | p :: ps => p.bindings ++ bindingsOfAll ps

end

mutual

/-- The expressions of the predicate. -/
def expressions : Predicate → List Expression
  | compare _ column _ value | dated _ _ column _ value =>
    column.expression?.toList ++ value.expression?.toList
  | raw _ fragment => [fragment.expression]
  | among _ column _ values => column.expression?.toList ++ values.filterMap Operand.expression?
  | null _ column _ => column.expression?.toList
  | between _ column _ low high =>
    column.expression?.toList ++ low.expression?.toList ++ high.expression?.toList
  | columns _ first _ second => first.expression?.toList ++ second.expression?.toList
  | nested _ members => expressionsOfAll members

/-- The expressions of predicates in a row. -/
def expressionsOfAll : List Predicate → List Expression
  | [] => []
  | p :: ps => p.expressions ++ expressionsOfAll ps

end

end Predicate

/-- The kind of a join. -/
inductive JoinKind where
  | inner
  | left
  | right
  | cross
  deriving DecidableEq, Repr

/-- The kind as a word. -/
def JoinKind.word : JoinKind → String
  | inner => "inner"
  | left => "left"
  | right => "right"
  | cross => "cross"

/-- A joined table with the conditions of the join. -/
structure Join where
  kind : JoinKind
  table : Ident
  clauses : List Predicate := []

namespace Join

/-- Joins on a comparison of two columns. The operator is written as it is. -/
def onColumns (j : Join) (link : Connective) (first : Ident) (operator : String) (second : Ident) :
    Join :=
  { j with clauses := j.clauses ++ [.columns link first operator second] }

/-- Joins on a comparison with a value. The operator is written as it is. -/
def onValue (j : Join) (link : Connective) (column : Ident) (operator : String) (value : Operand) :
    Join :=
  { j with clauses := j.clauses ++ [.compare link column operator value] }

/-- The bindings of the table, then of the conditions. -/
def bindings (j : Join) : List Binding :=
  j.table.bindings ++ Predicate.bindingsOfAll j.clauses

/-- The expressions of the table, then of the conditions. -/
def expressions (j : Join) : List Expression :=
  j.table.expression?.toList ++ Predicate.expressionsOfAll j.clauses

end Join

/-- What rows are ordered by. -/
inductive Order where
  | column (column : Ident) (descending : Bool)
  | raw (fragment : RawFragment)

namespace Order

/-- The bindings of what rows are ordered by. -/
def bindings : Order → List Binding
  | column c _ => c.bindings
  | raw f => f.bindings

/-- The expression that rows are ordered by, if it is one. -/
def expression? : Order → Option Expression
  | column c _ => c.expression?
  | raw f => some f.expression

end Order

/-- How the rows that a query reads are locked. -/
inductive Lock where
  | update
  | shared
  | raw (sql : String)
  deriving DecidableEq, Repr

/-- A function of columns that a query yields in place of its rows. -/
structure Aggregate where
  function : String
  columns : List Ident

/-- Which repeated rows are left out: none, all, or those that agree on some columns. -/
inductive Distinct where
  | none
  | all
  | on (columns : List String)
  deriving DecidableEq, Repr

/-- The order of rows and the page of them that is wanted. -/
structure Paging where
  orders : List Order := []
  limit : Option UInt64 := none
  offset : Option UInt64 := none

namespace Paging

/-- The bindings of the order. -/
def bindings (p : Paging) : List Binding :=
  p.orders.flatMap Order.bindings

/-- The expressions of the order. -/
def expressions (p : Paging) : List Expression :=
  p.orders.filterMap Order.expression?

end Paging

end SqlFragments
