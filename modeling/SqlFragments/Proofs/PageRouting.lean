import SqlFragments.Proofs.Calls

/-!
# Where calls put order and page

A call that orders rows or asks for a page of them is about the query itself until the query is
united with another, and about the whole from then on. `Query.page_call` and `Query.combined_call`
say so of one call, whatever it is, and `Query.calls_apart` and `Query.calls_united` of all the calls
before the first union and of all that come after it.

So a united query has a query beside it that was made without the calls about the whole, and the two
have the same slots but for what is the whole's (`Query.Beside`).
-/

namespace SqlFragments

variable {κ : Type}

namespace Query.Call

/-- Whether the call orders rows or asks for a page of them. -/
def isPaging : Call κ → Bool
  | orderBy _ | limit _ | offset _ => true
  | _ => false

/-- Whether the call unites the query with another. -/
def isUnion : Call κ → Bool
  | union _ _ => true
  | _ => false

/-- Whether the call is about the query that it is made on, also where that is united. -/
def isOwn (call : Call κ) : Bool := !call.isPaging && !call.isUnion

/-- What the call does to an order and a page. -/
def onPage : Call κ → Paging → Paging
  | orderBy order, p => { p with orders := p.orders ++ [order] }
  | limit n, p => { p with limit := some n }
  | offset n, p => { p with offset := some n }
  | _, p => p

/-- What the call orders rows by. -/
def order? : Call κ → Option Order
  | orderBy order => some order
  | _ => none

/-- A call is about a page, or unites, or is about the query itself. -/
theorem cases_isOwn (call : Call κ) :
    call.isPaging = true ∨ (∃ all member, call = union all member) ∨ call.isOwn = true := by
  cases call with
  | orderBy | limit | offset => exact .inl rfl
  | union all member => exact .inr (.inl ⟨all, member, rfl⟩)
  | _ => exact .inr (.inr rfl)

theorem isOwn_iff {call : Call κ} :
    call.isOwn = true ↔ call.isPaging = false ∧ call.isUnion = false := by
  simp [isOwn]

theorem isOwn_of_isPaging {call : Call κ} (paging : call.isPaging = true) : call.isOwn = false := by
  rw [isOwn, paging]
  rfl

theorem onPage_of_not_paging {call : Call κ} (other : call.isPaging = false) (p : Paging) :
    call.onPage p = p := by
  cases call with
  | orderBy | limit | offset => cases other
  | _ => rfl

end Query.Call

/-! ## Pages -/

namespace Paging

/-- The order and the page after calls. -/
def after (p : Paging) (calls : List (Query.Call κ)) : Paging :=
  calls.foldl (fun p call => call.onPage p) p

theorem orders_after (p : Paging) (calls : List (Query.Call κ)) :
    (p.after calls).orders = p.orders ++ calls.filterMap Query.Call.order? := by
  induction calls generalizing p with
  | nil => exact (List.append_nil _).symm
  | cons call calls ih =>
    rw [after, List.foldl_cons, ← after, ih, List.filterMap_cons]
    cases call with
    | orderBy order => exact List.append_assoc _ _ _
    | _ => rfl

/-- Calls put the bindings of new orders behind those that are there. -/
theorem bindings_after (p : Paging) (calls : List (Query.Call κ)) :
    (p.after calls).bindings =
      p.bindings ++ (calls.filterMap Query.Call.order?).flatMap Order.bindings := by
  rw [bindings, orders_after, List.flatMap_append]
  rfl

end Paging

/-! ## Changes of slots -/

/-- A change of slots that has nothing to do with order and page. -/
structure Slots.Aside (change : Slots → Slots) : Prop where
  page : ∀ s, (change s).page = s.page
  combined : ∀ s p, change { s with combined := p } = { change s with combined := p }

namespace Query

/-- Checking an operator leaves the slots and the queries that are united. -/
theorem addWhere_checkOperator (q : Query) (operator : String) (p : Predicate) :
    ((q.checkOperator operator).addWhere p).slots =
        { q.slots with wheres := q.slots.wheres ++ [p] } ∧
      ((q.checkOperator operator).addWhere p).isUnion = q.isUnion := by
  unfold checkOperator
  split <;> exact ⟨rfl, rfl⟩

theorem isUnion_indexed (q : Query) : q.indexed.isUnion = q.isUnion := by
  obtain ⟨slots, us, index, fault⟩ := q
  cases index with
  | some index => rfl
  | none => cases us <;> rfl

/-- **A call about the query itself** changes its slots in a way of its own, which has nothing to do
with order and page, and unites nothing. -/
theorem exists_change (call : Call Query) (own : call.isOwn = true) :
    ∃ change, Slots.Aside change ∧
      ∀ q : Query, (q.call call).slots = change q.slots ∧ (q.call call).isUnion = q.isUnion := by
  have conditioned (p : Predicate) :
      Slots.Aside fun s => { s with wheres := s.wheres ++ [p] } := ⟨fun _ => rfl, fun _ _ => rfl⟩
  cases call with
  | orderBy | limit | offset | union => cases own
  | select columns =>
    exact ⟨fun s => { s with columns := columns }, ⟨fun _ => rfl, fun _ _ => rfl⟩,
      fun _ => ⟨rfl, rfl⟩⟩
  | addSelect column =>
    exact ⟨fun s => { s with columns := s.columns ++ [column] }, ⟨fun _ => rfl, fun _ _ => rfl⟩,
      fun _ => ⟨rfl, rfl⟩⟩
  | withDistinct distinct =>
    exact ⟨fun s => { s with distinct := distinct }, ⟨fun _ => rfl, fun _ _ => rfl⟩,
      fun _ => ⟨rfl, rfl⟩⟩
  | fromTable table =>
    exact ⟨fun s => { s with table := some table }, ⟨fun _ => rfl, fun _ _ => rfl⟩,
      fun _ => ⟨rfl, rfl⟩⟩
  | join j =>
    exact ⟨fun s => { s with joins := s.joins ++ [j] }, ⟨fun _ => rfl, fun _ _ => rfl⟩,
      fun _ => ⟨rfl, rfl⟩⟩
  | addWhere p => exact ⟨_, conditioned p, fun _ => ⟨rfl, rfl⟩⟩
  | groupBy columns =>
    exact ⟨fun s => { s with groups := s.groups ++ columns }, ⟨fun _ => rfl, fun _ _ => rfl⟩,
      fun _ => ⟨rfl, rfl⟩⟩
  | addHaving p =>
    exact ⟨fun s => { s with havings := s.havings ++ [p] }, ⟨fun _ => rfl, fun _ _ => rfl⟩,
      fun _ => ⟨rfl, rfl⟩⟩
  | withLock lock =>
    exact ⟨fun s => { s with lock := some lock }, ⟨fun _ => rfl, fun _ _ => rfl⟩,
      fun _ => ⟨rfl, rfl⟩⟩
  | whereColumns first operator second =>
    exact ⟨_, conditioned _, fun q => q.addWhere_checkOperator operator _⟩
  | whereDated part column operator value =>
    exact ⟨_, conditioned _, fun q => q.addWhere_checkOperator operator _⟩
  | whereValue link column operator value =>
    simp only [Query.call, whereValue]
    split
    · exact ⟨_, conditioned _, fun q => q.addWhere_checkOperator operator _⟩
    · exact ⟨_, conditioned _, fun q => q.addWhere_checkOperator operator _⟩
  | havingValue link column operator value =>
    let p : Predicate := .compare link column (normalOperator operator) value
    refine ⟨fun s => { s with havings := s.havings ++ [p] }, ⟨fun _ => rfl, fun _ _ => rfl⟩,
      fun q => ?_⟩
    rw [Query.call, havingValue, checkOperator]
    split <;> exact ⟨rfl, rfl⟩
  | whereNested nested =>
    simp only [Query.call, whereNested]
    split
    · exact ⟨id, ⟨fun _ => rfl, fun _ _ => rfl⟩, fun q => by cases nested.fault <;> exact ⟨rfl, rfl⟩⟩
    · exact ⟨_, conditioned _, fun q => by cases nested.fault <;> exact ⟨rfl, rfl⟩⟩
  | index =>
    exact ⟨id, ⟨fun _ => rfl, fun _ _ => rfl⟩, fun q => ⟨q.slots_indexed, q.isUnion_indexed⟩⟩
  | refresh =>
    exact ⟨id, ⟨fun _ => rfl, fun _ _ => rfl⟩,
      fun q => ⟨slots_indexed { q with index := none }, isUnion_indexed { q with index := none }⟩⟩

/-- What a call about a page changes, before and after the first union. -/
theorem call_of_paging {call : Call Query} (paging : call.isPaging = true) (q : Query) :
    q.call call = if q.isUnion then q.edit fun s => { s with combined := call.onPage s.combined }
      else q.edit fun s => { s with page := call.onPage s.page } := by
  cases call with
  | orderBy | limit | offset => rfl
  | _ => cases paging

theorem slots_union (q : Query) (all : Bool) (member : Query) :
    (q.union all member).slots = q.slots := by
  unfold union
  split <;> rfl

theorem isUnion_union (q : Query) (all : Bool) (member : Query) :
    (q.union all member).isUnion = true := by
  unfold union isUnion
  split <;> simp

/-! ## One call -/

/-- **One call** unites the query, if it is the call for that. -/
theorem isUnion_call (q : Query) (call : Call Query) :
    (q.call call).isUnion = (q.isUnion || call.isUnion) := by
  rcases call.cases_isOwn with paging | ⟨all, member, rfl⟩ | own
  · have other : call.isUnion = false := by
      cases call with
      | orderBy | limit | offset => rfl
      | _ => cases paging
    rw [call_of_paging paging, other, Bool.or_false]
    split <;> rfl
  · exact (q.isUnion_union all member).trans (Bool.or_true _).symm
  · obtain ⟨change, -, changed⟩ := exists_change call own
    rw [(changed q).2, (Call.isOwn_iff.1 own).2, Bool.or_false]

/-- **One call** changes the page of the query itself if the query is not united. -/
theorem page_call (q : Query) (call : Call Query) :
    (q.call call).slots.page = if q.isUnion then q.slots.page else call.onPage q.slots.page := by
  rcases call.cases_isOwn with paging | ⟨all, member, rfl⟩ | own
  · rw [call_of_paging paging]
    split <;> rfl
  · rw [Query.call, slots_union]
    exact (ite_self _).symm
  · obtain ⟨change, aside, changed⟩ := exists_change call own
    rw [(changed q).1, aside.page, Call.onPage_of_not_paging (Call.isOwn_iff.1 own).1, ite_self]

/-- **One call** changes the page of the whole if there is one. -/
theorem combined_call (q : Query) (call : Call Query) :
    (q.call call).slots.combined =
      if q.isUnion then call.onPage q.slots.combined else q.slots.combined := by
  rcases call.cases_isOwn with paging | ⟨all, member, rfl⟩ | own
  · rw [call_of_paging paging]
    split <;> rfl
  · rw [Query.call, slots_union]
    exact (ite_self _).symm
  · obtain ⟨change, aside, changed⟩ := exists_change call own
    have same : change q.slots = { change q.slots with combined := q.slots.combined } :=
      aside.combined q.slots q.slots.combined
    have kept : (change q.slots).combined = q.slots.combined := by rw [same]
    rw [(changed q).1, kept, Call.onPage_of_not_paging (Call.isOwn_iff.1 own).1, ite_self]

/-! ## All calls -/

/-- The query after calls. -/
def calls (q : Query) (calls : List (Call Query)) : Query := calls.foldl call q

theorem calls_append (q : Query) (calls more : List (Call Query)) :
    q.calls (calls ++ more) = (q.calls calls).calls more := List.foldl_append

/-- **Calls before the first union** are about the query itself. -/
theorem calls_apart {q : Query} (apart : q.isUnion = false) {calls : List (Call Query)}
    (uniting : ∀ call ∈ calls, call.isUnion = false) :
    (q.calls calls).isUnion = false ∧ (q.calls calls).slots.page = q.slots.page.after calls ∧
      (q.calls calls).slots.combined = q.slots.combined := by
  induction calls generalizing q with
  | nil => exact ⟨apart, rfl, rfl⟩
  | cons call calls ih =>
    rw [List.forall_mem_cons] at uniting
    have next : (q.call call).isUnion = false := by
      rw [isUnion_call, apart, uniting.1]
      rfl
    obtain ⟨later, page, combined⟩ := ih next uniting.2
    refine ⟨later, page.trans ?_, combined.trans ?_⟩
    · rw [page_call, apart]
      rfl
    · rw [combined_call, apart]
      rfl

/-- **Calls after the first union** leave the page of the query itself; theirs is that of the whole.
-/
theorem calls_united {q : Query} (united : q.isUnion = true) (calls : List (Call Query)) :
    (q.calls calls).isUnion = true ∧ (q.calls calls).slots.page = q.slots.page ∧
      (q.calls calls).slots.combined = q.slots.combined.after calls := by
  induction calls generalizing q with
  | nil => exact ⟨united, rfl, rfl⟩
  | cons call calls ih =>
    have next : (q.call call).isUnion = true := by
      rw [isUnion_call, united]
      rfl
    obtain ⟨later, page, combined⟩ := ih next
    refine ⟨later, page.trans ?_, combined.trans ?_⟩
    · rw [page_call, united]
      rfl
    · rw [combined_call, united]
      rfl

/-- Calls about pages change nothing of a united query but the page of the whole. -/
theorem calls_paging {q : Query} (united : q.isUnion = true) {calls : List (Call Query)}
    (paging : ∀ call ∈ calls, call.isPaging = true) :
    (q.calls calls).slots = { q.slots with combined := q.slots.combined.after calls } ∧
      (q.calls calls).unions = q.unions := by
  induction calls generalizing q with
  | nil => exact ⟨rfl, rfl⟩
  | cons call calls ih =>
    rw [List.forall_mem_cons] at paging
    have one : q.call call = q.edit fun s => { s with combined := call.onPage s.combined } := by
      rw [call_of_paging paging.1, if_pos united]
    have next : (q.call call).isUnion = true := by
      rw [one]
      exact united
    obtain ⟨slots, unions⟩ := ih next paging.2
    have split : q.calls (call :: calls) = (q.call call).calls calls := rfl
    rw [split, slots, unions, one]
    exact ⟨rfl, rfl⟩

/-! ## The first member beside the whole -/

/-- The united query has the slots of a query that is not, but for the page of the whole. -/
structure Beside (q alone : Query) : Prop where
  united : q.isUnion = true
  apart : alone.isUnion = false
  slots : { q.slots with combined := alone.slots.combined } = alone.slots

namespace Beside

variable {q alone : Query}

/-- The first union puts the query beside what it was. -/
theorem of_union (apart : q.isUnion = false) (all : Bool) (member : Query) :
    (q.union all member).Beside q where
  united := q.isUnion_union all member
  apart := apart
  slots := by rw [slots_union]

/-- A call about the query itself changes both alike, and any other call the whole alone. -/
theorem call (h : q.Beside alone) (call : Call Query) :
    (q.call call).Beside (if call.isOwn then alone.call call else alone) := by
  have united : (q.call call).isUnion = true := by
    rw [isUnion_call, h.united]
    rfl
  rcases call.cases_isOwn with paging | ⟨all, member, rfl⟩ | own
  · rw [Call.isOwn_of_isPaging paging]
    refine ⟨united, h.apart, ?_⟩
    rw [call_of_paging paging, if_pos h.united]
    exact h.slots
  · refine ⟨united, h.apart, ?_⟩
    rw [Query.call, slots_union]
    exact h.slots
  · obtain ⟨change, aside, changed⟩ := exists_change call own
    rw [if_pos own]
    have same : (alone.call call).slots =
        { change q.slots with combined := alone.slots.combined } := by
      rw [(changed alone).1, ← aside.combined, h.slots]
    refine ⟨united, (changed alone).2.trans h.apart, ?_⟩
    rw [(changed q).1, same]

theorem calls (h : q.Beside alone) (calls : List (Call Query)) :
    (q.calls calls).Beside (alone.calls (calls.filter Call.isOwn)) := by
  induction calls generalizing q alone with
  | nil => exact h
  | cons call calls ih =>
    have next := h.call call
    rw [List.filter_cons]
    by_cases own : call.isOwn = true
    · rw [if_pos own] at next ⊢
      exact ih next
    · rw [if_neg own] at next ⊢
      exact ih next

end Beside

end Query

end SqlFragments
