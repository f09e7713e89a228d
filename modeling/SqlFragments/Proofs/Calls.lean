import SqlFragments.Proofs.Comparators

/-!
# Calls of the builder as data

A `Query.Call` is a call of the builder with what it is given, where a call that takes another query
in says which one. So a row of calls can be followed call by call: `fault_call` tells what fault a
call leaves. `Made` is every query that calls make of the empty one; such a query is built, and
yields its rows (`Made.aggregate`).
-/

namespace SqlFragments.Query

/-- A call of the builder, where `κ` is how a call names the query that it takes in. -/
inductive Call (κ : Type) where
  | select (columns : List Ident)
  | addSelect (column : Ident)
  | withDistinct (distinct : Distinct)
  | fromTable (table : Ident)
  | join (j : Join)
  | addWhere (p : Predicate)
  | whereValue (link : Connective) (column : Ident) (operator : String) (value : Operand)
  | whereColumns (first : Ident) (operator : String) (second : Ident)
  | whereDated (part : DatePart) (column : Ident) (operator : String) (value : Operand)
  | whereNested (nested : κ)
  | groupBy (columns : List Ident)
  | addHaving (p : Predicate)
  | havingValue (link : Connective) (column : Ident) (operator : String) (value : Operand)
  | orderBy (order : Order)
  | limit (n : UInt64)
  | offset (n : UInt64)
  | union (all : Bool) (member : κ)
  | withLock (lock : Lock)
  | index
  | refresh

namespace Call

variable {κ l : Type}

/-- The call with its query named in another way. -/
def map (f : κ → l) : Call κ → Call l
  | select columns => select columns
  | addSelect column => addSelect column
  | withDistinct distinct => withDistinct distinct
  | fromTable table => fromTable table
  | join j => join j
  | addWhere p => addWhere p
  | whereValue link column operator value => whereValue link column operator value
  | whereColumns first operator second => whereColumns first operator second
  | whereDated part column operator value => whereDated part column operator value
  | whereNested nested => whereNested (f nested)
  | groupBy columns => groupBy columns
  | addHaving p => addHaving p
  | havingValue link column operator value => havingValue link column operator value
  | orderBy order => orderBy order
  | limit n => limit n
  | offset n => offset n
  | union all member => union all (f member)
  | withLock lock => withLock lock
  | index => index
  | refresh => refresh

/-- What the call takes in. -/
def taken : Call κ → List κ
  | whereNested q | union _ q => [q]
  | _ => []

/-- The operator that the call checks. -/
def operator? : Call κ → Option String
  | whereValue _ _ operator _ | whereColumns _ operator _ | whereDated _ _ operator _
  | havingValue _ _ operator _ => some operator
  | _ => none

theorem taken_map (f : κ → l) (call : Call κ) : (call.map f).taken = call.taken.map f := by
  cases call <;> rfl

/-- A call that checks an operator takes nothing in. -/
theorem operator?_of_taken {call : Call κ} {k : κ} (member : k ∈ call.taken) :
    call.operator? = none := by
  cases call with
  | whereNested | union => rfl
  | _ => cases member

/-- The fault that the call records in a query without one. -/
def fault? (call : Call Query) : Option Fault :=
  match call.operator? with
  | some operator =>
    if normalOperator operator ∈ operators then none else some (.invalidOperator operator)
  | none => call.taken.findSome? fault

theorem fault?_of_taken {call : Call Query} {p : Query} (alone : call.taken = [p]) :
    call.fault? = p.fault := by
  have unchecked : call.operator? = none := operator?_of_taken (alone ▸ List.mem_cons_self)
  rw [fault?, unchecked, alone]
  dsimp only
  rw [List.findSome?_cons]
  cases p.fault <;> rfl

/-- The call records a fault if its operator is unknown, or there is one in what it takes in. -/
theorem fault?_isSome {call : Call Query} :
    call.fault?.isSome ↔
      (∃ operator, call.operator? = some operator ∧ normalOperator operator ∉ operators) ∨
        ∃ p ∈ call.taken, p.fault.isSome := by
  unfold fault?
  cases checked : call.operator? with
  | none => simp [List.findSome?_isSome_iff]
  | some operator =>
    have alone : ∀ p, p ∉ call.taken := fun p member => by
      rw [operator?_of_taken member] at checked
      cases checked
    by_cases known : normalOperator operator ∈ operators
    · simp [known, alone]
    · simp [known]

end Call

/-- The query after a call. -/
def call (q : Query) : Call Query → Query
  | .select columns => q.select columns
  | .addSelect column => q.addSelect column
  | .withDistinct distinct => q.withDistinct distinct
  | .fromTable table => q.fromTable table
  | .join j => q.join j
  | .addWhere p => q.addWhere p
  | .whereValue link column operator value => q.whereValue link column operator value
  | .whereColumns first operator second => q.whereColumns first operator second
  | .whereDated part column operator value => q.whereDated part column operator value
  | .whereNested nested => q.whereNested nested
  | .groupBy columns => q.groupBy columns
  | .addHaving p => q.addHaving p
  | .havingValue link column operator value => q.havingValue link column operator value
  | .orderBy order => q.orderBy order
  | .limit n => q.limit n
  | .offset n => q.offset n
  | .union all member => q.union all member
  | .withLock lock => q.withLock lock
  | .index => q.indexed
  | .refresh => q.refreshed

/-- **One call** makes a built query of built queries. -/
theorem Built.call {q : Query} (h : q.Built) (call : Call Query)
    (taken : ∀ p ∈ call.taken, p.Built) : (q.call call).Built := by
  cases call with
  | select columns => exact h.select columns
  | addSelect column => exact h.addSelect column
  | withDistinct distinct => exact h.withDistinct distinct
  | fromTable table => exact h.fromTable table
  | join j => exact h.join j
  | addWhere p => exact h.addWhere p
  | whereValue link column operator value => exact h.whereValue link column operator value
  | whereColumns first operator second => exact h.whereColumns first operator second
  | whereDated part column operator value => exact h.whereDated part column operator value
  | whereNested nested => exact h.whereNested (taken nested List.mem_cons_self)
  | groupBy columns => exact h.groupBy columns
  | addHaving p => exact h.addHaving p
  | havingValue link column operator value => exact h.havingValue link column operator value
  | orderBy order => exact h.orderBy order
  | limit n => exact h.limit n
  | offset n => exact h.offset n
  | union all member => exact h.union all (taken member List.mem_cons_self)
  | withLock lock => exact h.withLock lock
  | index => exact h.indexed
  | refresh => exact h.refreshed

/-- **One call** keeps the fault of a query, and records its own in a query without one. -/
theorem fault_call (q : Query) (call : Call Query) :
    (q.call call).fault = q.fault.or call.fault? := by
  have checked {call : Call Query} {operator : String} (h : call.operator? = some operator) :
      (q.checkOperator operator).fault = q.fault.or call.fault? := by
    rw [fault_checkOperator, Call.fault?, h]
    dsimp only
    split
    · exact Option.or_none.symm
    · rfl
  cases call with
  | select | addSelect | withDistinct | fromTable | join | addWhere | groupBy | addHaving
  | withLock => exact Option.or_none.symm
  | orderBy | limit | offset => exact (fault_paged q _).trans Option.or_none.symm
  | index => exact (fault_indexed q).trans Option.or_none.symm
  | refresh => exact (fault_indexed _).trans Option.or_none.symm
  | whereValue link column operator value =>
    exact (fault_whereValue q link column operator value).trans (checked rfl)
  | whereColumns first operator second =>
    exact (fault_addWhere _ _).trans (checked rfl)
  | whereDated part column operator value =>
    exact (fault_addWhere _ _).trans (checked rfl)
  | havingValue link column operator value =>
    exact (fault_addHaving _ _).trans (checked rfl)
  | whereNested nested =>
    rw [Query.call, fault_whereNested, Call.fault?_of_taken rfl]
  | union all member =>
    rw [Query.call, fault_union, Call.fault?_of_taken rfl]

/-- The queries that calls make from the empty query, of queries that calls make. -/
inductive Made : Query → Prop where
  | empty : Made {}
  | call {q : Query} (call : Call Query) (made : Made q) (taken : ∀ p ∈ call.taken, Made p) :
    Made (q.call call)

theorem Made.built {q : Query} (h : q.Made) : q.Built := by
  induction h with
  | empty => exact .empty
  | call call _ _ ih ihtaken => exact ih.call call ihtaken

/-- Computing the index leaves the slots. -/
theorem slots_indexed (q : Query) : q.indexed.slots = q.slots := by
  obtain ⟨slots, us, index, fault⟩ := q
  cases index <;> rfl

/-- No call sets an aggregate. -/
theorem aggregate_call (q : Query) (call : Call Query) :
    (q.call call).slots.aggregate = q.slots.aggregate := by
  have checked (operator : String) :
      (q.checkOperator operator).slots.aggregate = q.slots.aggregate := by
    unfold checkOperator
    split <;> rfl
  have paged (change : Paging → Paging) : (q.paged change).slots.aggregate = q.slots.aggregate := by
    unfold Query.paged
    split <;> rfl
  have condition (q : Query) (p : Predicate) :
      (q.addWhere p).slots.aggregate = q.slots.aggregate := rfl
  have ofGroups (q : Query) (p : Predicate) :
      (q.addHaving p).slots.aggregate = q.slots.aggregate := rfl
  cases call with
  | select | addSelect | withDistinct | fromTable | join | addWhere | groupBy | addHaving
  | withLock => rfl
  | whereColumns _ operator _ | whereDated _ _ operator _ =>
    exact (condition _ _).trans (checked operator)
  | havingValue _ _ operator _ => exact (ofGroups _ _).trans (checked operator)
  | orderBy | limit | offset => exact paged _
  | index => rw [Query.call, slots_indexed]
  | refresh => rw [Query.call, refreshed, slots_indexed]
  | whereValue link column operator value =>
    rw [Query.call, whereValue]
    split <;> exact (condition _ _).trans (checked operator)
  | whereNested nested =>
    rw [Query.call, whereNested]
    cases nested.fault <;> dsimp only <;> split <;> rfl
  | union all member =>
    rw [Query.call, union]
    cases member.fault <;> rfl

/-- A query that calls made yields its rows, not a function of columns. -/
theorem Made.aggregate {q : Query} (h : q.Made) : q.slots.aggregate = none := by
  induction h with
  | empty => rfl
  | call call _ _ ih _ => rw [aggregate_call, ih]

end SqlFragments.Query
