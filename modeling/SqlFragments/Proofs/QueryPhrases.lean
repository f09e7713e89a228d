import SqlFragments.Proofs.PageForms
import SqlFragments.Proofs.SlotPhrases

/-!
# The phrases of queries

The phrase of a query is put as the query is written (`Query.puts`). It is filled but where a join
lacks its conditions, or where a level leaves out rows that agree on no columns (`Query.filled_iff`).
-/

namespace SqlFragments

section Phrases

variable (w : Writer (Except Error))

namespace Slots

/-- The phrase of the table that a query reads, with the lock where the dialect writes it there. -/
def sourcePhrase (d : Dialect) (s : Slots) : Phrase :=
  match s.table with
  | none => .word ""
  | some t => .word " from " ++ t.phrase ++ (s.lock.map d.hintPhrase).getD (.word "")

/-- The aggregate that takes the place of the columns, if one does. -/
def call? (s : Slots) (aggregated : Bool) : Option Aggregate :=
  if aggregated then s.aggregate else none

/-- The phrase of `select` with what a query selects. -/
def selectedPhrase (s : Slots) (aggregated : Bool) : Phrase :=
  match s.call? aggregated with
  | some a => .list .select (.word "") [a.phrase (a.leavesOut w s.distinct)]
  | none =>
    .list .select (w.dialect.topPhrase s.page.limit s.page.offset ++ s.distinct.phrase)
      (Ident.items s.columns)

/-- The limit that is left for the end of the query. -/
def limitLeft (s : Slots) (aggregated : Bool) : Option UInt64 :=
  match s.call? aggregated with
  | some _ => s.page.limit
  | none => if (w.dialect.top s.page.limit s.page.offset).isSome then none else s.page.limit

/-- The phrase of a query without what it is united with. -/
def phrase (s : Slots) (aggregated : Bool) : Phrase :=
  let d := w.dialect
  s.selectedPhrase w aggregated ++ s.sourcePhrase d ++ .joined (s.joins.map (Join.phrase d)) ++
    .clause .filter (Predicate.phrases d s.wheres) ++
    .clause .groupBy (Phrase.commas (s.groups.map Ident.phrase)) ++
    .clause .having (Predicate.phrases d s.havings) ++ Order.clause s.page.orders ++
    d.pagePhrase (s.limitLeft w aggregated) s.page.offset (!s.page.orders.isEmpty) ++
    (s.lock.map d.lockPhrase).getD (.word "")

/-- How repeated rows are left out, where that is written in front of columns. -/
def distincts (s : Slots) (aggregated : Bool) : List Distinct :=
  match s.call? aggregated with
  | some _ => []
  | none => [s.distinct]

end Slots

namespace Query

mutual

/-- The phrase of a query. -/
def phrase : Query → Phrase
  | ⟨slots, [], _, _⟩ => slots.phrase w true
  | ⟨slots, u :: us, _, _⟩ =>
    let page := slots.combined
    let whole := w.dialect.unionPhrase (slots.phrase w false) ++ .joined (memberPhrases (u :: us)) ++
      Order.clause page.orders ++ w.dialect.pagePhrase page.limit page.offset (!page.orders.isEmpty)
    match slots.aggregate with
    | some a =>
      .list .select (.word "") [a.phrase (a.leavesOut w slots.distinct)] ++ .word " from (" ++ whole ++
        .word ") as " ++ .own "temp_table"
    | none => whole

/-- The phrases of the members of a union after the first. -/
def memberPhrases : List (Bool × Query) → List Phrase
  | [] => []
  | (all, q) :: rest =>
    ((if all then .word " union all " else .word " union ") ++ w.dialect.unionPhrase q.phrase) ::
      memberPhrases rest

end

mutual

/-- How repeated rows are left out at each level of a query that writes its columns. -/
def distincts : Query → List Distinct
  | ⟨slots, [], _, _⟩ => slots.distincts true
  | ⟨slots, u :: us, _, _⟩ => slots.distincts false ++ memberDistincts (u :: us)

/-- How repeated rows are left out at each level of united queries that writes its columns. -/
def memberDistincts : List (Bool × Query) → List Distinct
  | [] => []
  | (_, q) :: rest => q.distincts ++ memberDistincts rest

end

end Query

end Phrases

/-! ## Phrases are put as what a writer writes -/

section Puts

variable {w : Writer (Except Error)} {text : String}

namespace Slots

theorem puts_source {s : Slots} (h : w.source s = .ok text) :
    w.Puts (s.sourcePhrase w.dialect) text := by
  unfold Writer.source at h
  unfold sourcePhrase
  cases table : s.table with
  | none =>
    rw [table] at h
    exact h
  | some t =>
    rw [table] at h
    simp only [bind_eq_ok, pure_eq_ok] at h
    obtain ⟨table, ht, rfl⟩ := h
    exact ((Ident.puts ht).opened " from ").append (w.dialect.puts_hint s.lock)

theorem puts_selection {s : Slots} (h : w.selection s = .ok text) :
    w.Puts
      (.list .select (w.dialect.topPhrase s.page.limit s.page.offset ++ s.distinct.phrase)
        (Ident.items s.columns)) ("select " ++ text) := by
  simp only [Writer.selection, bind_eq_ok, pure_eq_ok] at h
  obtain ⟨distinct, hd, columns, hc, rfl⟩ := h
  refine (Writer.Puts.list .select ((w.dialect.puts_top _ _).append (Distinct.puts hd))
    (Ident.puts_items hc)).congr ?_
  simp only [String.append_assoc]
  rfl

theorem selected_eq (w : Writer (Except Error)) (s : Slots) (aggregated : Bool) :
    w.selected s aggregated =
      match s.call? aggregated with
      | some a => do return (← w.aggregateCall a s.distinct, s.limitLeft w aggregated)
      | none => do return (← w.selection s, s.limitLeft w aggregated) := by
  cases aggregated <;> cases aggregate : s.aggregate <;>
    simp only [Writer.selected, limitLeft, call?, aggregate, if_true, Bool.false_eq_true, if_false]

theorem puts_selected {s : Slots} {aggregated : Bool} {limit : Option UInt64}
    (h : w.selected s aggregated = .ok (text, limit)) :
    w.Puts (s.selectedPhrase w aggregated) ("select " ++ text) ∧ limit = s.limitLeft w aggregated := by
  rw [selected_eq] at h
  unfold selectedPhrase
  cases called : s.call? aggregated with
  | some a =>
    simp only [called, bind_eq_ok, pure_eq_ok, Prod.mk.injEq] at h
    obtain ⟨call, hc, rfl, rfl⟩ := h
    exact ⟨.behind .select (.single (Aggregate.puts hc)), rfl⟩
  | none =>
    simp only [called, bind_eq_ok, pure_eq_ok, Prod.mk.injEq] at h
    obtain ⟨selection, hs, rfl, rfl⟩ := h
    exact ⟨puts_selection hs, rfl⟩

theorem puts {s : Slots} {aggregated : Bool} (h : w.components s aggregated = .ok text) :
    w.Puts (s.phrase w aggregated) text := by
  simp only [Writer.components, bind_eq_ok, pure_eq_ok, Prod.exists] at h
  obtain ⟨selected, limit, hselected, source, hsource, joins, hjoins, wheres, hwheres, groups, hgroups,
    havings, hhavings, orders, horders, rfl⟩ := h
  obtain ⟨front, rfl⟩ := puts_selected hselected
  have filter := Predicate.puts_clause .filter hwheres
  have having := Predicate.puts_clause .having hhavings
  have group : w.Puts (.clause .groupBy (Phrase.commas (s.groups.map Ident.phrase))) groups := by
    refine .clause hgroups ?_ fun _ => Ident.puts_commas
    cases s.groups with
    | nil => rfl
    | cons c cs => cases cs <;> rfl
  exact ((((((((front.append (puts_source hsource)).append (Join.puts_joined hjoins)).append
    filter).append group).append having).append (Order.puts_clause horders)).append
    (w.dialect.puts_page _ _ _)).append (w.dialect.puts_lock s.lock))

end Slots

namespace Query

mutual

/-- **Queries as phrases.** The phrase of a query is put as the query is written. -/
theorem puts : ∀ (q : Query) {text : String}, w.select q = .ok text → w.Puts (q.phrase w) text
  | ⟨slots, [], _, _⟩, _, h => by
    rw [Writer.select] at h
    rw [phrase]
    exact slots.puts h
  | ⟨slots, u :: us, _, _⟩, _, h => by
    simp only [Writer.select, bind_eq_ok] at h
    obtain ⟨first, hf, others, ho, orders, horders, h⟩ := h
    have whole := (((slots.puts hf).union.append (.joined (puts_members (u :: us) ho))).append
      (Order.puts_clause horders)).append (w.dialect.puts_page slots.combined.limit
        slots.combined.offset (!slots.combined.orders.isEmpty))
    -- An aggregate is taken of the whole union, which becomes a source of its own.
    rw [phrase]
    cases aggregate : slots.aggregate with
    | some a =>
      simp only [aggregate, bind_eq_ok, pure_eq_ok] at h
      obtain ⟨call, hc, rfl⟩ := h
      have called : w.Puts (.list .select (.word "") [a.phrase (a.leavesOut w slots.distinct)])
          ("select " ++ call) :=
        .behind .select (.single (Aggregate.puts hc))
      refine ((((called.closed " from (").append whole).closed ") as ").append
        (.own "temp_table")).congr ?_
      simp only [String.append_assoc]
    | none =>
      simp only [aggregate, pure_eq_ok] at h
      subst h
      exact whole

theorem puts_members : ∀ (us : List (Bool × Query)) {text : String}, w.members us = .ok text →
    w.PutsAll (memberPhrases w us) text
  | [], _, h => h
  | (all, q) :: rest, _, h => by
    simp only [Writer.members, bind_eq_ok, pure_eq_ok] at h
    obtain ⟨first, hf, others, ho, rfl⟩ := h
    rw [memberPhrases]
    have put := (puts q hf).union
    cases all with
    | true => exact .cons (put.opened " union all ") (puts_members rest ho)
    | false => exact .cons (put.opened " union ") (puts_members rest ho)

end

end Query

end Puts

/-! ## Filled phrases -/

section Filled

variable (w : Writer (Except Error))

namespace Slots

theorem filled_source (d : Dialect) (s : Slots) : (s.sourcePhrase d).Filled := by
  unfold sourcePhrase
  split
  · trivial
  · simpa using d.filled_hint s.lock

theorem filled_selected (s : Slots) (aggregated : Bool) :
    (s.selectedPhrase w aggregated).Filled ↔ .on [] ∉ s.distincts aggregated := by
  unfold selectedPhrase distincts
  cases s.call? aggregated with
  | some a => simpa using a.filled _
  | none =>
    have columns := Phrase.allFilled_iff.2 (Ident.filled_items s.columns)
    simp only [Phrase.filled_list, Phrase.filled_append, w.dialect.filled_top, s.distinct.filled_iff,
      columns, ne_eq, Ident.items_ne_nil, not_false_eq_true, true_and, and_true, List.mem_singleton]
    exact not_congr eq_comm

/-- The joins of the slots have their conditions. -/
def Joined (s : Slots) : Prop := ∀ j ∈ s.joins, j.Conditioned

instance (s : Slots) : Decidable s.Joined :=
  inferInstanceAs (Decidable (∀ j ∈ s.joins, j.Conditioned))

theorem filled_joins (d : Dialect) (s : Slots) :
    (Phrase.joined (s.joins.map (Join.phrase d))).Filled ↔ s.Joined := by
  simp [Joined, Join.filled_iff]

theorem filled_iff (s : Slots) (aggregated : Bool) :
    (s.phrase w aggregated).Filled ↔ s.Joined ∧ .on [] ∉ s.distincts aggregated := by
  have groups : (Phrase.clause .groupBy (Phrase.commas (s.groups.map Ident.phrase))).Filled :=
    Phrase.filled_clause (Ident.filled_commas s.groups)
  simp only [phrase, Phrase.filled_append, filled_selected, filled_source, filled_joins, groups,
    Predicate.filled_clause, Order.filled_clause, Dialect.filled_page, Dialect.filled_lock, and_true]
  exact and_comm

end Slots

namespace Query

mutual

/-- **Filled queries.** The phrase of a query is filled if its joins have their conditions, and no
level leaves out rows that agree on no columns. -/
theorem filled_iff : ∀ q : Query,
    (q.phrase w).Filled ↔ (∀ s ∈ q.levels, s.Joined) ∧ .on [] ∉ q.distincts
  | ⟨slots, [], _, _⟩ => by
    rw [phrase, slots.filled_iff, distincts, levels, memberLevels, List.forall_mem_singleton]
  | ⟨slots, u :: us, index, fault⟩ => by
    have first := slots.filled_iff w false
    have others := filled_members (u :: us)
    have whole : (w.dialect.unionPhrase (slots.phrase w false) ++
        .joined (memberPhrases w (u :: us)) ++ Order.clause slots.combined.orders ++
        w.dialect.pagePhrase slots.combined.limit slots.combined.offset
          (!slots.combined.orders.isEmpty)).Filled ↔
        (∀ s ∈ levels ⟨slots, u :: us, index, fault⟩, s.Joined) ∧
          .on [] ∉ distincts ⟨slots, u :: us, index, fault⟩ := by
      simp only [Phrase.filled_append, Dialect.filled_union, first, Phrase.filled_joined, others,
        Order.filled_clause, Dialect.filled_page, and_true, levels, distincts, List.forall_mem_cons,
        List.mem_append, not_or]
      exact and_and_and_comm
    rw [phrase]
    split
    · next a aggregate =>
      simpa [a.filled] using whole
    · exact whole

theorem filled_members : ∀ us : List (Bool × Query),
    (∀ p ∈ memberPhrases w us, p.Filled) ↔
      (∀ s ∈ memberLevels us, s.Joined) ∧ .on [] ∉ memberDistincts us
  | [] => by simp [memberPhrases, memberLevels, memberDistincts]
  | (all, q) :: rest => by
    have word : (if all then Phrase.word " union all " else .word " union ").Filled := by
      cases all <;> trivial
    rw [memberPhrases, List.forall_mem_cons, filled_members rest, Phrase.filled_append,
      Dialect.filled_union, filled_iff q, memberLevels, memberDistincts, List.forall_mem_append,
      List.mem_append, not_or, and_iff_right word]
    exact and_and_and_comm

end

end Query

end Filled

end SqlFragments
