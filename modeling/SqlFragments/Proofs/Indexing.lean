import SqlFragments.Proofs.Building

/-!
# What a query remembers of itself

A query may hold an index of its expressions, and so may every query that it is united with.
`Query.scan` finds the expressions without any index. Calls that change slots drop the index of the
query that they change, and keep those of its members, so a built query is `Truthful`: whatever it
remembers at any depth is what a scan finds (`Built.truthful`).
-/

namespace SqlFragments.Query

mutual

/-- The expressions of the slots, whatever the query remembers. -/
def scan : Query → List Expression
  | ⟨slots, unions, _, _⟩ =>
    slots.expressions ++ scanMembers unions ++ slots.combined.expressions

/-- The expressions of united queries, whatever they remember. -/
def scanMembers : List (Bool × Query) → List Expression
  | [] => []
  | (_, q) :: rest => q.scan ++ scanMembers rest

end

theorem scan_eq (q : Query) :
    q.scan = q.slots.expressions ++ scanMembers q.unions ++ q.slots.combined.expressions := by
  cases q
  rfl

/-- What the query remembers is what a scan finds, and so for the queries it is united with. -/
inductive Truthful : Query → Prop where
  | intro {q : Query} (remembered : ∀ found, q.index = some found → found = q.scan)
    (members : ∀ u ∈ q.unions, Truthful u.2) : Truthful q

namespace Truthful

variable {q : Query}

theorem remembered (h : q.Truthful) : ∀ found, q.index = some found → found = q.scan := by
  cases h
  assumption

theorem members (h : q.Truthful) : ∀ u ∈ q.unions, u.2.Truthful := by
  cases h
  assumption

/-- A truthful query tells the expressions that a scan finds. -/
theorem expressions (h : q.Truthful) : q.expressions = q.scan := by
  induction h with
  | @intro q remembered members ih =>
    obtain ⟨slots, us, index, fault⟩ := q
    cases index with
    | some found => exact remembered found rfl
    | none =>
      -- Of the hypotheses only `ih` is about one member at a time; the others go.
      have told : expressionsOfMembers us = scanMembers us := by
        clear remembered members
        induction us with
        | nil => rfl
        | cons u us rest =>
          rw [expressionsOfMembers, scanMembers, ih u List.mem_cons_self,
            rest fun v hv => ih v (List.mem_cons_of_mem u hv)]
      rw [Query.expressions, scan, told]

/-- A query that remembers nothing is as truthful as its members. -/
theorem of_forgotten {q' : Query} (h : q.Truthful) (forgotten : q'.index = none)
    (unions : q'.unions = q.unions) : q'.Truthful := by
  refine .intro (fun found held => ?_) (unions ▸ h.members)
  rw [forgotten] at held
  cases held

theorem edit (h : q.Truthful) (change : Slots → Slots) : (q.edit change).Truthful :=
  h.of_forgotten rfl rfl

theorem addWhere (h : q.Truthful) (p : Predicate) : (q.addWhere p).Truthful := h.edit _

theorem addHaving (h : q.Truthful) (p : Predicate) : (q.addHaving p).Truthful := h.edit _

theorem withAggregate (h : q.Truthful) (a : Aggregate) : (q.withAggregate a).Truthful := h.edit _

theorem fail (h : q.Truthful) (fault : Fault) : (q.fail fault).Truthful := by
  refine .intro (fun found held => (h.remembered found held).trans ?_) h.members
  rw [scan_eq, scan_eq]
  rfl

theorem checkOperator (h : q.Truthful) (operator : String) :
    (q.checkOperator operator).Truthful := by
  unfold Query.checkOperator
  split
  · exact h
  · exact h.fail _

theorem paged (h : q.Truthful) (change : Paging → Paging) : (q.paged change).Truthful := by
  unfold Query.paged
  split
  · exact h.edit _
  · exact h.edit _

theorem whereValue (h : q.Truthful) (link : Connective) (column : Ident) (operator : String)
    (value : Operand) : (q.whereValue link column operator value).Truthful := by
  simp only [Query.whereValue]
  split
  · exact (h.checkOperator operator).addWhere _
  · exact (h.checkOperator operator).addWhere _

theorem whereNested {nested : Query} (h : q.Truthful) : (q.whereNested nested).Truthful := by
  unfold Query.whereNested
  split <;> split
  · exact h.fail _
  · exact (h.fail _).addWhere _
  · exact h
  · exact h.addWhere _

theorem union {member : Query} (h : q.Truthful) (all : Bool) (hmember : member.Truthful) :
    (q.union all member).Truthful := by
  have united : ∀ u ∈ q.unions ++ [(all, member)], u.2.Truthful := by
    intro u hu
    rcases List.mem_append.1 hu with earlier | last
    · exact h.members u earlier
    · rw [List.mem_singleton.1 last]
      exact hmember
  unfold Query.union
  split
  · exact .intro (fun found held => nomatch held) united
  · exact .intro (fun found held => nomatch held) united

end Truthful

mutual

/-- Computing an index changes nothing that a scan finds. -/
theorem scan_indexed : ∀ q : Query, q.indexed.scan = q.scan
  | ⟨_, _, some _, _⟩ => rfl
  | ⟨slots, us, none, _⟩ => by rw [indexed, scan, scan, scanMembers_indexed us]

theorem scanMembers_indexed :
    ∀ us : List (Bool × Query), scanMembers (indexedMembers us) = scanMembers us
  | [] => rfl
  | (_, q) :: us => by
    rw [indexedMembers, scanMembers, scanMembers, scan_indexed q, scanMembers_indexed us]

end

/-- An index that is computed is what a scan finds. -/
theorem Truthful.indexed {q : Query} (h : q.Truthful) : q.indexed.Truthful := by
  induction h with
  | @intro q remembered members ih =>
    obtain ⟨slots, us, index, fault⟩ := q
    cases index with
    | some found => exact .intro remembered members
    | none =>
      have told : expressionsOfMembers (indexedMembers us) = scanMembers (indexedMembers us) := by
        clear remembered members
        induction us with
        | nil => rfl
        | cons u us rest =>
          rw [indexedMembers, expressionsOfMembers, scanMembers,
            (ih u List.mem_cons_self).expressions,
            rest fun v hv => ih v (List.mem_cons_of_mem u hv)]
      rw [Query.indexed]
      refine .intro (fun found held => ?_) fun u hu => ?_
      · cases held
        rw [told]
        rfl
      · simp only [indexedMembers_eq_map, List.mem_map] at hu
        obtain ⟨v, hv, rfl⟩ := hu
        exact ih v hv

theorem Truthful.refreshed {q : Query} (h : q.Truthful) : q.refreshed.Truthful :=
  Truthful.indexed (h.of_forgotten rfl rfl)

/-- Every built query is truthful. -/
theorem Built.truthful {q : Query} (h : q.Built) : q.Truthful := by
  induction h with
  | empty => exact .intro (fun _ held => nomatch held) (fun _ hu => nomatch hu)
  | select _ _ ih | addSelect _ _ ih | withDistinct _ _ ih | fromTable _ _ ih | join _ _ ih
  | addWhere _ _ ih | groupBy _ _ ih | addHaving _ _ ih | withLock _ _ ih | withAggregate _ _ ih =>
    exact ih.edit _
  | whereValue link column operator value _ ih => exact ih.whereValue link column operator value
  | whereColumns _ operator _ _ ih | whereDated _ _ operator _ _ ih =>
    exact (ih.checkOperator operator).addWhere _
  | havingValue _ _ operator _ _ ih => exact (ih.checkOperator operator).addHaving _
  | whereNested _ _ ih _ => exact ih.whereNested
  | orderBy _ _ ih | limit _ _ ih | offset _ _ ih => exact ih.paged _
  | union all _ _ ih ihmember => exact ih.union all ihmember
  | indexed _ ih => exact ih.indexed
  | refreshed _ ih => exact ih.refreshed

/-! ## Queries without what they remember -/

mutual

/-- The query with nothing remembered, at any depth. -/
def bare : Query → Query
  | ⟨slots, unions, _, fault⟩ => ⟨slots, bareMembers unions, none, fault⟩

/-- United queries with nothing remembered. -/
def bareMembers : List (Bool × Query) → List (Bool × Query)
  | [] => []
  | (all, q) :: rest => (all, q.bare) :: bareMembers rest

end

mutual

theorem bare_indexed : ∀ q : Query, q.indexed.bare = q.bare
  | ⟨_, _, some _, _⟩ => rfl
  | ⟨slots, us, none, _⟩ => by rw [indexed, bare, bare, bareMembers_indexed us]

theorem bareMembers_indexed :
    ∀ us : List (Bool × Query), bareMembers (indexedMembers us) = bareMembers us
  | [] => rfl
  | (_, q) :: us => by
    rw [indexedMembers, bareMembers, bareMembers, bare_indexed q, bareMembers_indexed us]

end

theorem bare_refreshed (q : Query) : q.refreshed.bare = q.bare := by
  rw [refreshed, bare_indexed]
  cases q
  rfl

mutual

/-- What remembers nothing is truthful. -/
theorem truthful_bare : ∀ q : Query, q.bare.Truthful
  | ⟨_, us, _, _⟩ => by
    rw [bare]
    exact .intro (fun _ held => nomatch held) (truthful_bareMembers us)

theorem truthful_bareMembers :
    ∀ us : List (Bool × Query), ∀ u ∈ bareMembers us, u.2.Truthful
  | [] => fun _ member => nomatch member
  | (_, q) :: us => by
    rw [bareMembers]
    exact List.forall_mem_cons.2 ⟨truthful_bare q, truthful_bareMembers us⟩

end

end SqlFragments.Query
