import SqlFragments.Query.Builder

/-!
# Built queries

`Built` is every query that the calls of the builder make from an empty one, in any order and with
any queries united. In each of them only a united query has an order and a page of the whole: that
is where the calls put them once the query is united (`Built.wellFormed`).
-/

namespace SqlFragments.Query

/-- The queries that the calls of the builder make. -/
inductive Built : Query → Prop where
  | empty : Built {}
  | select {q : Query} (columns : List Ident) : Built q → Built (q.select columns)
  | addSelect {q : Query} (column : Ident) : Built q → Built (q.addSelect column)
  | withDistinct {q : Query} (distinct : Distinct) : Built q → Built (q.withDistinct distinct)
  | fromTable {q : Query} (table : Ident) : Built q → Built (q.fromTable table)
  | join {q : Query} (j : Join) : Built q → Built (q.join j)
  | addWhere {q : Query} (p : Predicate) : Built q → Built (q.addWhere p)
  | whereValue {q : Query} (link : Connective) (column : Ident) (operator : String)
    (value : Operand) : Built q → Built (q.whereValue link column operator value)
  | whereColumns {q : Query} (first : Ident) (operator : String) (second : Ident) :
    Built q → Built (q.whereColumns first operator second)
  | whereDated {q : Query} (part : DatePart) (column : Ident) (operator : String)
    (value : Operand) : Built q → Built (q.whereDated part column operator value)
  | whereNested {q nested : Query} : Built q → Built nested → Built (q.whereNested nested)
  | groupBy {q : Query} (columns : List Ident) : Built q → Built (q.groupBy columns)
  | addHaving {q : Query} (p : Predicate) : Built q → Built (q.addHaving p)
  | havingValue {q : Query} (link : Connective) (column : Ident) (operator : String)
    (value : Operand) : Built q → Built (q.havingValue link column operator value)
  | orderBy {q : Query} (order : Order) : Built q → Built (q.orderBy order)
  | limit {q : Query} (n : UInt64) : Built q → Built (q.limit n)
  | offset {q : Query} (n : UInt64) : Built q → Built (q.offset n)
  | union {q member : Query} (all : Bool) : Built q → Built member → Built (q.union all member)
  | withLock {q : Query} (lock : Lock) : Built q → Built (q.withLock lock)
  | withAggregate {q : Query} (aggregate : Aggregate) :
    Built q → Built (q.withAggregate aggregate)
  | indexed {q : Query} : Built q → Built q.indexed
  | refreshed {q : Query} : Built q → Built q.refreshed

/-- Only a united query has an order and a page of the whole, and so for the queries it is united
with. -/
inductive WellFormed : Query → Prop where
  | intro {q : Query} (whole : q.unions = [] → q.slots.combined = {})
    (members : ∀ u ∈ q.unions, WellFormed u.2) : WellFormed q

namespace WellFormed

variable {q : Query}

theorem whole (h : q.WellFormed) : q.unions = [] → q.slots.combined = {} := by
  cases h
  assumption

theorem ordered (h : q.WellFormed) (alone : q.unions = []) : q.slots.combined.orders = [] := by
  rw [h.whole alone]

theorem members (h : q.WellFormed) : ∀ u ∈ q.unions, u.2.WellFormed := by
  cases h
  assumption

/-- What a call changes elsewhere does not matter. -/
theorem of_same {q' : Query} (h : q.WellFormed) (unions : q'.unions = q.unions)
    (combined : q'.slots.combined = q.slots.combined) : q'.WellFormed := by
  refine .intro ?_ ?_
  · rw [unions, combined]
    exact h.whole
  · rw [unions]
    exact h.members

/-- A page goes to the whole only where there is one. -/
theorem paged (h : q.WellFormed) (change : Paging → Paging) : (q.paged change).WellFormed := by
  unfold Query.paged
  split
  · next united =>
    refine .intro (fun alone => ?_) h.members
    have none : q.unions = [] := alone
    simp [isUnion, none] at united
  · exact h.of_same rfl rfl

theorem addWhere (h : q.WellFormed) (p : Predicate) : (q.addWhere p).WellFormed :=
  h.of_same rfl rfl

theorem addHaving (h : q.WellFormed) (p : Predicate) : (q.addHaving p).WellFormed :=
  h.of_same rfl rfl

theorem fail (h : q.WellFormed) (fault : Fault) : (q.fail fault).WellFormed := h.of_same rfl rfl

theorem checkOperator (h : q.WellFormed) (operator : String) :
    (q.checkOperator operator).WellFormed := by
  unfold Query.checkOperator
  split
  · exact h
  · exact h.fail _

theorem union {member : Query} (h : q.WellFormed) (all : Bool) (hmember : member.WellFormed) :
    (q.union all member).WellFormed := by
  have united : ∀ u ∈ q.unions ++ [(all, member)], u.2.WellFormed := by
    intro u hu
    rcases List.mem_append.1 hu with earlier | last
    · exact h.members u earlier
    · rw [List.mem_singleton.1 last]
      exact hmember
  unfold Query.union
  split
  · exact .intro (by simp) united
  · exact .intro (by simp) united

theorem whereNested {nested : Query} (h : q.WellFormed) : (q.whereNested nested).WellFormed := by
  unfold Query.whereNested
  split <;> split
  · exact h.fail _
  · exact (h.fail _).addWhere _
  · exact h
  · exact h.addWhere _

theorem whereValue (h : q.WellFormed) (link : Connective) (column : Ident) (operator : String)
    (value : Operand) : (q.whereValue link column operator value).WellFormed := by
  simp only [Query.whereValue]
  split
  · exact (h.checkOperator operator).addWhere _
  · exact (h.checkOperator operator).addWhere _

end WellFormed

theorem indexedMembers_eq_map : ∀ us : List (Bool × Query),
    indexedMembers us = us.map fun u => (u.1, u.2.indexed)
  | [] => rfl
  | (all, q) :: us => by rw [indexedMembers, indexedMembers_eq_map us, List.map_cons]

/-- Computing the index changes neither the slots nor which queries are united. -/
theorem WellFormed.indexed {q : Query} (h : q.WellFormed) : q.indexed.WellFormed := by
  induction h with
  | @intro q whole members ih =>
    obtain ⟨slots, us, index, fault⟩ := q
    cases index with
    | some index => exact .intro whole members
    | none =>
      rw [Query.indexed]
      refine .intro (fun alone => ?_) ?_
      · simp only [indexedMembers_eq_map, List.map_eq_nil_iff] at alone
        exact whole alone
      · intro u hu
        simp only [indexedMembers_eq_map, List.mem_map] at hu
        obtain ⟨v, hv, rfl⟩ := hu
        exact ih v hv

/-- Every built query is well formed. -/
theorem Built.wellFormed {q : Query} (h : q.Built) : q.WellFormed := by
  induction h with
  | empty => exact .intro (fun _ => rfl) (fun _ hu => nomatch hu)
  | select _ _ ih | addSelect _ _ ih | withDistinct _ _ ih | fromTable _ _ ih | join _ _ ih
  | groupBy _ _ ih | withLock _ _ ih | withAggregate _ _ ih =>
    exact ih.of_same rfl rfl
  | addWhere p _ ih => exact ih.addWhere p
  | addHaving p _ ih => exact ih.addHaving p
  | whereValue link column operator value _ ih => exact ih.whereValue link column operator value
  | whereColumns _ operator _ _ ih | whereDated _ _ operator _ _ ih =>
    exact (ih.checkOperator operator).addWhere _
  | havingValue _ _ operator _ _ ih => exact (ih.checkOperator operator).addHaving _
  | whereNested _ _ ih _ => exact ih.whereNested
  | orderBy _ _ ih | limit _ _ ih | offset _ _ ih => exact ih.paged _
  | union all _ _ ih ihmember => exact ih.union all ihmember
  | indexed _ ih => exact ih.indexed
  | refreshed _ ih => exact WellFormed.indexed (ih.of_same rfl rfl)

end SqlFragments.Query
