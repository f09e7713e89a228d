import SqlFragments.Proofs.Building

/-!
# Operators of built queries

A `Comparator` is an operator that a statement writes between two operands: in a condition on rows or
groups, or in the condition of a join. The calls that add a condition check its operator and record
a fault when it is not among `operators`; a fault is taken over from a query that is nested or united.
So in a query that such calls made (`Query.Called`), all operators of conditions are among
`operators`, at any depth, unless the query has a fault (`Called.checked`), and then the fault tells
an operator that is not (`Called.fault_is_operator`).

The conditions of joins are added without a check, so of their operators nothing is known.
-/

namespace SqlFragments

/-- An operator that is written between two operands, and whether it is in the condition of a join.
-/
structure Comparator where
  operator : String
  joined : Bool
  deriving DecidableEq, Repr

namespace Predicate

mutual

/-- The operators of the predicate, in the order of its text. -/
def comparators (joined : Bool) : Predicate → List Comparator
  | compare _ _ operator _ | columns _ _ operator _ | dated _ _ _ operator _ =>
    [⟨operator, joined⟩]
  | nested _ members => comparatorsOfAll joined members
  | raw _ _ | among _ _ _ _ | null _ _ _ | between _ _ _ _ _ => []

/-- The operators of predicates in a row. -/
def comparatorsOfAll (joined : Bool) : List Predicate → List Comparator
  | [] => []
  | p :: ps => p.comparators joined ++ comparatorsOfAll joined ps

end

theorem mem_comparatorsOfAll {joined : Bool} {ps : List Predicate} {o : Comparator} :
    o ∈ comparatorsOfAll joined ps ↔ ∃ p ∈ ps, o ∈ p.comparators joined := by
  induction ps with
  | nil => exact ⟨nofun, nofun⟩
  | cons p ps ih => simp only [comparatorsOfAll, List.mem_append, ih, List.mem_cons, exists_eq_or_imp]

mutual

theorem joined_of_mem {joined : Bool} {o : Comparator} :
    ∀ p : Predicate, o ∈ p.comparators joined → o.joined = joined
  | compare _ _ _ _ | columns _ _ _ _ | dated _ _ _ _ _ =>
    fun member => congrArg Comparator.joined (List.mem_singleton.1 member)
  | nested _ members => joined_of_mem_all members
  | raw _ _ | among _ _ _ _ | null _ _ _ | between _ _ _ _ _ => fun member => nomatch member

theorem joined_of_mem_all {joined : Bool} {o : Comparator} :
    ∀ ps : List Predicate, o ∈ comparatorsOfAll joined ps → o.joined = joined
  | [] => fun member => nomatch member
  | p :: ps => fun member =>
    (List.mem_append.1 member).elim (joined_of_mem p) (joined_of_mem_all ps)

end

/-- All operators of the predicate are among `operators`. -/
def Allowed (p : Predicate) : Prop := ∀ o ∈ p.comparators false, o.operator ∈ operators

theorem allowed_of_plain {p : Predicate} (plain : p.comparators false = []) : p.Allowed := by
  rw [Allowed, plain]
  exact List.forall_mem_nil _

theorem allowed_of_known {p : Predicate} {operator : String} (known : operator ∈ operators)
    (one : p.comparators false = [⟨operator, false⟩]) : p.Allowed := by
  rw [Allowed, one]
  exact List.forall_mem_singleton.2 known

end Predicate

/-- The operators of a join's condition. -/
def Join.comparators (j : Join) : List Comparator := Predicate.comparatorsOfAll true j.clauses

/-- The operators of the slots, in the order of the text. -/
def Slots.comparators (s : Slots) : List Comparator :=
  s.joins.flatMap Join.comparators ++ Predicate.comparatorsOfAll false s.wheres ++
    Predicate.comparatorsOfAll false s.havings

/-- The fault tells an operator that is not among `operators`. -/
def Fault.TellsOperator (fault : Fault) : Prop :=
  ∃ operator, fault = .invalidOperator operator ∧ normalOperator operator ∉ operators

namespace Query

mutual

/-- The operators of a query that is read, in the order of its text. -/
def comparators : Query → List Comparator
  | ⟨slots, unions, _, _⟩ => slots.comparators ++ memberComparators unions

/-- The operators of united queries. -/
def memberComparators : List (Bool × Query) → List Comparator
  | [] => []
  | (_, q) :: rest => q.comparators ++ memberComparators rest

end

/-- All conditions on rows and groups have operators among `operators`, and so for the queries that
the query is united with. -/
inductive Checked : Query → Prop where
  | intro {q : Query} (wheres : ∀ p ∈ q.slots.wheres, p.Allowed)
    (havings : ∀ p ∈ q.slots.havings, p.Allowed) (members : ∀ u ∈ q.unions, Checked u.2) :
    Checked q

namespace Checked

variable {q : Query}

theorem wheres (h : q.Checked) : ∀ p ∈ q.slots.wheres, p.Allowed := by
  cases h
  assumption

theorem havings (h : q.Checked) : ∀ p ∈ q.slots.havings, p.Allowed := by
  cases h
  assumption

theorem members (h : q.Checked) : ∀ u ∈ q.unions, u.2.Checked := by
  cases h
  assumption

/-- In the slots of a checked query only a join has operators that are not among `operators`. -/
theorem slots (h : q.Checked) : ∀ o ∈ q.slots.comparators, o.joined = false →
    o.operator ∈ operators := by
  intro o member condition
  simp only [Slots.comparators, List.mem_append, List.mem_flatMap] at member
  rcases member with (⟨j, -, inJoin⟩ | inWhere) | inHaving
  · rw [Predicate.joined_of_mem_all _ inJoin] at condition
    cases condition
  · obtain ⟨p, given, inPredicate⟩ := Predicate.mem_comparatorsOfAll.1 inWhere
    exact h.wheres p given o inPredicate
  · obtain ⟨p, given, inPredicate⟩ := Predicate.mem_comparatorsOfAll.1 inHaving
    exact h.havings p given o inPredicate

/-- In a checked query only joins have operators that are not among `operators`. -/
theorem comparators (h : q.Checked) : ∀ o ∈ q.comparators, o.joined = false →
    o.operator ∈ operators := by
  induction h with
  | @intro q wheres havings members ih =>
    obtain ⟨slots, us, index, fault⟩ := q
    intro o member condition
    rw [Query.comparators, List.mem_append] at member
    rcases member with own | other
    · exact (Checked.intro wheres havings members).slots o own condition
    · clear wheres havings members
      induction us with
      | nil => cases other
      | cons u us rest =>
        rw [memberComparators, List.mem_append] at other
        rcases other with first | later
        · exact ih u List.mem_cons_self o first condition
        · exact rest (fun v member => ih v (List.mem_cons_of_mem u member)) later

/-- What a call changes elsewhere does not matter. -/
theorem of_same {q' : Query} (h : q.Checked) (wheres : q'.slots.wheres = q.slots.wheres)
    (havings : q'.slots.havings = q.slots.havings) (unions : q'.unions = q.unions) : q'.Checked :=
  .intro (wheres ▸ h.wheres) (havings ▸ h.havings) (unions ▸ h.members)

theorem addWhere (h : q.Checked) {p : Predicate} (allowed : p.Allowed) : (q.addWhere p).Checked := by
  refine .intro (fun p' member => ?_) h.havings h.members
  rcases List.mem_append.1 member with earlier | last
  · exact h.wheres p' earlier
  · rwa [List.mem_singleton.1 last]

theorem addHaving (h : q.Checked) {p : Predicate} (allowed : p.Allowed) :
    (q.addHaving p).Checked := by
  refine .intro h.wheres (fun p' member => ?_) h.members
  rcases List.mem_append.1 member with earlier | last
  · exact h.havings p' earlier
  · rwa [List.mem_singleton.1 last]

theorem indexed (h : q.Checked) : q.indexed.Checked := by
  induction h with
  | @intro q wheres havings members ih =>
    obtain ⟨slots, us, index, fault⟩ := q
    cases index with
    | some found => exact .intro wheres havings members
    | none =>
      rw [Query.indexed]
      refine .intro wheres havings fun u member => ?_
      simp only [indexedMembers_eq_map, List.mem_map] at member
      obtain ⟨v, member, rfl⟩ := member
      exact ih v member

theorem refreshed (h : q.Checked) : q.refreshed.Checked := Checked.indexed (h.of_same rfl rfl rfl)

end Checked

/-- The queries that calls make, where every condition is added by a call: what `addWhere` and
`addHaving` add has no operator. -/
inductive Called : Query → Prop where
  | empty : Called {}
  | select {q : Query} (columns : List Ident) : Called q → Called (q.select columns)
  | addSelect {q : Query} (column : Ident) : Called q → Called (q.addSelect column)
  | withDistinct {q : Query} (distinct : Distinct) : Called q → Called (q.withDistinct distinct)
  | fromTable {q : Query} (table : Ident) : Called q → Called (q.fromTable table)
  | join {q : Query} (j : Join) : Called q → Called (q.join j)
  | groupBy {q : Query} (columns : List Ident) : Called q → Called (q.groupBy columns)
  | orderBy {q : Query} (order : Order) : Called q → Called (q.orderBy order)
  | limit {q : Query} (n : UInt64) : Called q → Called (q.limit n)
  | offset {q : Query} (n : UInt64) : Called q → Called (q.offset n)
  | withLock {q : Query} (lock : Lock) : Called q → Called (q.withLock lock)
  | withAggregate {q : Query} (aggregate : Aggregate) :
    Called q → Called (q.withAggregate aggregate)
  | addWhere {q : Query} (p : Predicate) (plain : p.comparators false = []) :
    Called q → Called (q.addWhere p)
  | addHaving {q : Query} (p : Predicate) (plain : p.comparators false = []) :
    Called q → Called (q.addHaving p)
  | whereValue {q : Query} (link : Connective) (column : Ident) (operator : String)
    (value : Operand) : Called q → Called (q.whereValue link column operator value)
  | whereColumns {q : Query} (first : Ident) (operator : String) (second : Ident) :
    Called q → Called (q.whereColumns first operator second)
  | whereDated {q : Query} (part : DatePart) (column : Ident) (operator : String)
    (value : Operand) : Called q → Called (q.whereDated part column operator value)
  | havingValue {q : Query} (link : Connective) (column : Ident) (operator : String)
    (value : Operand) : Called q → Called (q.havingValue link column operator value)
  | whereNested {q nested : Query} : Called q → Called nested → Called (q.whereNested nested)
  | union {q member : Query} (all : Bool) : Called q → Called member → Called (q.union all member)
  | indexed {q : Query} : Called q → Called q.indexed
  | refreshed {q : Query} : Called q → Called q.refreshed

/-! ## What the calls record -/

theorem fault_checkOperator (q : Query) (operator : String) :
    (q.checkOperator operator).fault =
      if normalOperator operator ∈ operators then q.fault
      else q.fault.or (some (.invalidOperator operator)) := by
  simp only [checkOperator, List.contains_iff_mem]
  split <;> rfl

theorem fault_addWhere (q : Query) (p : Predicate) : (q.addWhere p).fault = q.fault := rfl

theorem fault_addHaving (q : Query) (p : Predicate) : (q.addHaving p).fault = q.fault := rfl

theorem fault_whereValue (q : Query) (link : Connective) (column : Ident) (operator : String)
    (value : Operand) :
    (q.whereValue link column operator value).fault = (q.checkOperator operator).fault := by
  simp only [whereValue]
  split
  · exact fault_addWhere _ _
  · exact fault_addWhere _ _

theorem fault_whereNested (q nested : Query) :
    (q.whereNested nested).fault = q.fault.or nested.fault := by
  unfold whereNested
  cases nested.fault with
  | none =>
    rw [Option.or_none]
    dsimp only
    split <;> rfl
  | some fault =>
    dsimp only
    split <;> rfl

theorem fault_union (q member : Query) (all : Bool) :
    (q.union all member).fault = q.fault.or member.fault := by
  unfold union
  cases member.fault with
  | none => exact Option.or_none.symm
  | some fault => rfl

theorem fault_indexed (q : Query) : q.indexed.fault = q.fault := by
  obtain ⟨slots, us, index, fault⟩ := q
  cases index <;> rfl

theorem fault_paged (q : Query) (change : Paging → Paging) : (q.paged change).fault = q.fault := by
  unfold paged
  split <;> rfl

/-- A call that leaves no fault found none, and passed its operator. -/
theorem known_of_faultless {q : Query} {operator : String}
    (faultless : (q.checkOperator operator).fault = none) :
    q.fault = none ∧ normalOperator operator ∈ operators := by
  rw [fault_checkOperator] at faultless
  split at faultless
  · next known => exact ⟨faultless, known⟩
  · cases (Option.or_eq_none_iff.1 faultless).2

/-- A fault that is there when an operator has been checked was there before, or tells the operator.
-/
theorem tellsOperator_of_checkOperator {q : Query} {operator : String} {fault : Fault}
    (before : q.fault = some fault → fault.TellsOperator)
    (faulty : (q.checkOperator operator).fault = some fault) : fault.TellsOperator := by
  rw [fault_checkOperator] at faulty
  split at faulty
  · exact before faulty
  · next unknown =>
    rcases Option.or_eq_some_iff.1 faulty with earlier | ⟨-, same⟩
    · exact before earlier
    · cases same
      exact ⟨operator, rfl, unknown⟩

namespace Checked

variable {q : Query}

theorem checkOperator (h : q.Checked) (operator : String) : (q.checkOperator operator).Checked := by
  unfold Query.checkOperator
  split
  · exact h
  · exact h.of_same rfl rfl rfl

theorem paged (h : q.Checked) (change : Paging → Paging) : (q.paged change).Checked := by
  unfold Query.paged
  split
  · exact h.of_same rfl rfl rfl
  · exact h.of_same rfl rfl rfl

theorem whereValue (h : q.Checked) (link : Connective) (column : Ident) {operator : String}
    (known : normalOperator operator ∈ operators) (value : Operand) :
    (q.whereValue link column operator value).Checked := by
  simp only [Query.whereValue]
  split
  · exact (h.checkOperator operator).addWhere (Predicate.allowed_of_plain rfl)
  · exact (h.checkOperator operator).addWhere (Predicate.allowed_of_known known rfl)

theorem whereNested {nested : Query} (h : q.Checked) (hnested : nested.Checked) :
    (q.whereNested nested).Checked := by
  have allowed : (Predicate.nested .and nested.slots.wheres).Allowed := by
    intro o member
    obtain ⟨p, given, inPredicate⟩ := Predicate.mem_comparatorsOfAll.1 member
    exact hnested.wheres p given o inPredicate
  have failed (fault : Fault) : (q.fail fault).Checked := h.of_same rfl rfl rfl
  unfold Query.whereNested
  split <;> split
  · exact failed _
  · exact (failed _).addWhere allowed
  · exact h
  · exact h.addWhere allowed

theorem union {member : Query} (h : q.Checked) (all : Bool) (hmember : member.Checked) :
    (q.union all member).Checked := by
  have united : ∀ u ∈ q.unions ++ [(all, member)], u.2.Checked := by
    intro u among
    rcases List.mem_append.1 among with earlier | last
    · exact h.members u earlier
    · rw [List.mem_singleton.1 last]
      exact hmember
  unfold Query.union
  split
  · exact .intro h.wheres h.havings united
  · exact .intro h.wheres h.havings united

end Checked

namespace Called

variable {q : Query}

/-- **Conditions are checked.** A query without faults has only operators among `operators` in its
conditions, at any depth. -/
theorem checked (h : q.Called) (faultless : q.fault = none) : q.Checked := by
  induction h with
  | empty =>
    exact .intro (fun _ member => nomatch member) (fun _ member => nomatch member)
      fun _ member => nomatch member
  | select _ _ ih | addSelect _ _ ih | withDistinct _ _ ih | fromTable _ _ ih | join _ _ ih
  | groupBy _ _ ih | withLock _ _ ih | withAggregate _ _ ih =>
    exact (ih faultless).of_same rfl rfl rfl
  | orderBy _ _ ih | limit _ _ ih | offset _ _ ih =>
    exact (ih ((fault_paged _ _).symm.trans faultless)).paged _
  | addWhere p plain _ ih => exact (ih faultless).addWhere (Predicate.allowed_of_plain plain)
  | addHaving p plain _ ih => exact (ih faultless).addHaving (Predicate.allowed_of_plain plain)
  | whereValue link column operator value _ ih =>
    rw [fault_whereValue] at faultless
    obtain ⟨before, known⟩ := known_of_faultless faultless
    exact (ih before).whereValue link column known value
  | whereColumns _ operator _ _ ih =>
    rw [Query.whereColumns, fault_addWhere] at faultless
    obtain ⟨before, known⟩ := known_of_faultless faultless
    exact ((ih before).checkOperator operator).addWhere (Predicate.allowed_of_known known rfl)
  | whereDated _ _ operator _ _ ih =>
    rw [Query.whereDated, fault_addWhere] at faultless
    obtain ⟨before, known⟩ := known_of_faultless faultless
    exact ((ih before).checkOperator operator).addWhere (Predicate.allowed_of_known known rfl)
  | havingValue _ _ operator _ _ ih =>
    rw [Query.havingValue, fault_addHaving] at faultless
    obtain ⟨before, known⟩ := known_of_faultless faultless
    exact ((ih before).checkOperator operator).addHaving (Predicate.allowed_of_known known rfl)
  | whereNested _ _ ih ihnested =>
    rw [fault_whereNested, Option.or_eq_none_iff] at faultless
    exact (ih faultless.1).whereNested (ihnested faultless.2)
  | union all _ _ ih ihmember =>
    rw [fault_union, Option.or_eq_none_iff] at faultless
    exact (ih faultless.1).union all (ihmember faultless.2)
  | indexed _ ih => exact (ih ((fault_indexed _).symm.trans faultless)).indexed
  | refreshed _ ih =>
    rw [Query.refreshed, fault_indexed] at faultless
    exact (ih faultless).refreshed

/-- **Faults are operators.** The only fault of a query is an operator that is not among
`operators`. -/
theorem fault_is_operator (h : q.Called) {fault : Fault} (faulty : q.fault = some fault) :
    fault.TellsOperator := by
  induction h with
  | empty => cases faulty
  | select _ _ ih | addSelect _ _ ih | withDistinct _ _ ih | fromTable _ _ ih | join _ _ ih
  | groupBy _ _ ih | withLock _ _ ih | withAggregate _ _ ih | addWhere _ _ _ ih
  | addHaving _ _ _ ih => exact ih faulty
  | orderBy _ _ ih | limit _ _ ih | offset _ _ ih =>
    exact ih ((fault_paged _ _).symm.trans faulty)
  | whereValue link column operator value _ ih =>
    rw [fault_whereValue] at faulty
    exact tellsOperator_of_checkOperator ih faulty
  | whereColumns _ _ _ _ ih =>
    rw [Query.whereColumns, fault_addWhere] at faulty
    exact tellsOperator_of_checkOperator ih faulty
  | whereDated _ _ _ _ _ ih =>
    rw [Query.whereDated, fault_addWhere] at faulty
    exact tellsOperator_of_checkOperator ih faulty
  | havingValue _ _ _ _ _ ih =>
    rw [Query.havingValue, fault_addHaving] at faulty
    exact tellsOperator_of_checkOperator ih faulty
  | whereNested _ _ ih ihnested =>
    rw [fault_whereNested, Option.or_eq_some_iff] at faulty
    exact faulty.elim ih fun nested => ihnested nested.2
  | union all _ _ ih ihmember =>
    rw [fault_union, Option.or_eq_some_iff] at faulty
    exact faulty.elim ih fun member => ihmember member.2
  | indexed _ ih => exact ih ((fault_indexed _).symm.trans faulty)
  | refreshed _ ih =>
    rw [Query.refreshed, fault_indexed] at faulty
    exact ih faulty

end Called

end Query

end SqlFragments
