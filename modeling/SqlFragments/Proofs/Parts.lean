import SqlFragments.Proofs.QuotedName
import SqlFragments.Query.Builder
import SqlFragments.Statement.Bindings
import SqlFragments.Statement.Text

/-!
# What a text is put together from

A statement is put together from names, operators, texts taken over verbatim, bound values and
fragments, with the words of the language between them. `parts` lists them for every slot and for a
whole query in the order of the text; `sources` picks those that bring placeholders, and `brought`
lists the bindings of these.

A predicate can be told apart from what is around it, so a query has a `frame`, which is made of the
parts that no predicate has, beside its `predicates`.
-/

namespace SqlFragments

/-- What brings placeholders into a text: a bound value, or a fragment with those of its text. -/
inductive Source where
  | value (b : Binding)
  | fragment (f : RawFragment)

/-- The bindings of the placeholders in order. -/
def Source.bindings : Source → List Binding
  | value b => [b]
  | fragment f => f.bindings

/-- What a text is put together from, beside the words of the language. -/
inductive Part where
  | name (name : String)
  | operator (operator : String)
  | verbatim (sql : String)
  | source (source : Source)

/-- The part as a source, if it is one. -/
def Part.source? : Part → Option Source
  | source s => some s
  | _ => none

/-- The sources among parts. -/
def sources (parts : List Part) : List Source := parts.filterMap Part.source?

/-- The bindings that parts bring, in order. -/
def brought (parts : List Part) : List Binding := (sources parts).flatMap Source.bindings

section Lists

variable {α : Type} (ps qs : List Part)

@[simp] theorem sources_nil : sources [] = [] := rfl

@[simp] theorem sources_operator (o : String) : sources (.operator o :: ps) = sources ps := rfl

@[simp] theorem sources_source (s : Source) : sources (.source s :: ps) = s :: sources ps := rfl

@[simp] theorem sources_append : sources (ps ++ qs) = sources ps ++ sources qs := by
  simp [sources]

@[simp] theorem sources_flatMap (f : α → List Part) (as : List α) :
    sources (as.flatMap f) = as.flatMap fun a => sources (f a) := by
  simp [sources, List.filterMap_flatMap]

@[simp] theorem sources_names (names : List String) : sources (names.map Part.name) = [] := by
  induction names with
  | nil => rfl
  | cons n ns ih => exact ih

@[simp] theorem brought_nil : brought [] = [] := rfl

@[simp] theorem brought_operator (o : String) : brought (.operator o :: ps) = brought ps := rfl

@[simp] theorem brought_verbatim (sql : String) : brought (.verbatim sql :: ps) = brought ps := rfl

@[simp] theorem brought_source (s : Source) :
    brought (.source s :: ps) = s.bindings ++ brought ps := by
  simp [brought]

@[simp] theorem brought_append : brought (ps ++ qs) = brought ps ++ brought qs := by
  simp [brought]

@[simp] theorem brought_flatMap (f : α → List Part) (as : List α) :
    brought (as.flatMap f) = as.flatMap fun a => brought (f a) := by
  simp [brought, List.flatMap_assoc]

end Lists

/-! ## The parts of slots -/

/-- A name, or the fragment of a column or table. -/
def Ident.parts : Ident → List Part
  | name n => [.name n]
  | raw f => [.source (.fragment f)]

/-- A bound value, or the fragment of an expression. -/
def Operand.parts : Operand → List Part
  | bound b => [.source (.value b)]
  | inline e => [.source (.fragment ⟨e, []⟩)]

namespace Predicate

mutual

/-- The parts of a predicate. Of an `in` over no values nothing is written, not even the column. -/
def parts : Predicate → List Part
  | compare _ column operator value => column.parts ++ .operator operator :: value.parts
  | raw _ f => [.source (.fragment f)]
  | among _ column _ values =>
    if values.isEmpty then [] else column.parts ++ values.flatMap Operand.parts
  | null _ column _ => column.parts
  | between _ column _ low high => column.parts ++ low.parts ++ high.parts
  | columns _ first operator second => first.parts ++ .operator operator :: second.parts
  | nested _ members => partsOfAll members
  | dated _ _ column operator value => column.parts ++ .operator operator :: value.parts

/-- The parts of predicates in a row. -/
def partsOfAll : List Predicate → List Part
  | [] => []
  | p :: ps => p.parts ++ partsOfAll ps

end

end Predicate

/-- The parts of the table, then of the conditions. -/
def Join.parts (j : Join) : List Part := j.table.parts ++ Predicate.partsOfAll j.clauses

/-- The parts of what rows are ordered by. -/
def Order.parts : Order → List Part
  | column c _ => c.parts
  | raw f => [.source (.fragment f)]

/-- The parts of an order; a page is written in words. -/
def Paging.parts (p : Paging) : List Part := p.orders.flatMap Order.parts

/-- The function and the columns of an aggregate. -/
def Aggregate.parts (a : Aggregate) : List Part :=
  .verbatim a.function :: a.columns.flatMap Ident.parts

/-- The columns on which repeated rows agree. -/
def Distinct.parts : Distinct → List Part
  | none | all => []
  | on columns => columns.map Part.name

/-- The text of a lock that is given as text. -/
def Lock.parts : Lock → List Part
  | update | shared => []
  | raw sql => [.verbatim sql]

namespace Slots

/-- The parts of what a query selects where there is no aggregate in its place. -/
def selectionParts (s : Slots) : List Part := s.distinct.parts ++ s.columns.flatMap Ident.parts

/-- The parts of a query after what it selects. -/
def bodyParts (s : Slots) : List Part :=
  s.table.toList.flatMap Ident.parts ++ s.lock.toList.flatMap Lock.parts ++
    s.joins.flatMap Join.parts ++ Predicate.partsOfAll s.wheres ++ s.groups.flatMap Ident.parts ++
    Predicate.partsOfAll s.havings ++ s.page.parts

/-- The parts of what a query selects; an aggregate takes the place of the columns if `aggregated`
is set. -/
def selectedParts (s : Slots) (aggregated : Bool) : List Part :=
  match s.aggregate, aggregated with
  | some a, true => a.parts
  | _, _ => s.selectionParts

/-- The parts of a query without what it is united with. -/
def componentsParts (s : Slots) (aggregated : Bool) : List Part :=
  s.selectedParts aggregated ++ s.bodyParts

/-- The single predicates of the slots. -/
def predicates (s : Slots) : List Predicate := s.joins.flatMap Join.clauses ++ s.wheres ++ s.havings

/-- The parts of the slots outside the predicates, whether they are written or not. -/
def frame (s : Slots) : List Part :=
  s.aggregate.toList.flatMap Aggregate.parts ++ s.selectionParts ++
    s.table.toList.flatMap Ident.parts ++ s.lock.toList.flatMap Lock.parts ++
    s.joins.flatMap (fun j => j.table.parts) ++ s.groups.flatMap Ident.parts ++ s.page.parts ++
    s.combined.parts

end Slots

namespace Query

mutual

/-- The parts of a query that is read. The aggregate of a union comes before the united queries. -/
def parts : Query → List Part
  | ⟨slots, [], _, _⟩ => slots.componentsParts true
  | ⟨slots, u :: us, _, _⟩ =>
    slots.aggregate.toList.flatMap Aggregate.parts ++ slots.componentsParts false ++
      membersParts (u :: us) ++ slots.combined.parts

/-- The parts of united queries. -/
def membersParts : List (Bool × Query) → List Part
  | [] => []
  | (_, q) :: rest => q.parts ++ membersParts rest

end

mutual

/-- The single predicates of a query and of those that it is united with. -/
def predicates : Query → List Predicate
  | ⟨slots, unions, _, _⟩ => slots.predicates ++ membersPredicates unions

/-- The single predicates of united queries. -/
def membersPredicates : List (Bool × Query) → List Predicate
  | [] => []
  | (_, q) :: rest => q.predicates ++ membersPredicates rest

end

mutual

/-- The parts outside predicates of a query and of those that it is united with. -/
def frame : Query → List Part
  | ⟨slots, unions, _, _⟩ => slots.frame ++ membersFrame unions

/-- The parts outside predicates of united queries. -/
def membersFrame : List (Bool × Query) → List Part
  | [] => []
  | (_, q) :: rest => q.frame ++ membersFrame rest

end

end Query

/-! ## What the parts bring -/

@[simp] theorem Ident.brought_parts (i : Ident) : brought i.parts = i.bindings := by
  cases i with
  | name n => rfl
  | raw f => simp [parts, bindings, Source.bindings]

@[simp] theorem Operand.brought_parts (o : Operand) : brought o.parts = o.bindings := by
  cases o with
  | bound b => rfl
  | inline e => simp [parts, bindings, Source.bindings, RawFragment.bindings]

@[simp] theorem Order.brought_parts (o : Order) : brought o.parts = o.bindings := by
  cases o with
  | column c descending => simp [parts, bindings]
  | raw f => simp [parts, bindings, Source.bindings]

@[simp] theorem Paging.brought_parts (p : Paging) : brought p.parts = p.bindings := by
  simp [parts, bindings]

@[simp] theorem Aggregate.brought_parts (a : Aggregate) :
    brought a.parts = a.columns.flatMap Ident.bindings := by
  simp [parts]

@[simp] theorem Distinct.sources_parts (x : Distinct) : sources x.parts = [] := by
  cases x <;> simp [parts]

@[simp] theorem Distinct.brought_parts (x : Distinct) : brought x.parts = [] := by
  simp [brought]

@[simp] theorem Lock.sources_parts (l : Lock) : sources l.parts = [] := by
  cases l <;> rfl

end SqlFragments
