import SqlFragments.Proofs.Building
import SqlFragments.Proofs.PredicateAlignment

/-!
# Queries and their bindings

The text of a query and its bindings come from two walks over its slots. Here both are followed slot
by slot: each clause is aligned with the bindings of its slot, so the clauses in a row are aligned
with the bindings of all slots (`Slots.aligned`), and a query with those that it is united with is
aligned with all their bindings (`Query.aligned`).

What is known is that the frame of the query is safe, and that each of its predicates is aligned on
its own.
-/

namespace SqlFragments

/-! ## Words of the dialects -/

namespace Dialect

open Quote

theorem plain_limitThenOffset {limit offset : Option String} (hl : ∀ s ∈ limit, Plain s.toList)
    (ho : ∀ s ∈ offset, Plain s.toList) : Plain (limitThenOffset limit offset).toList := by
  have words : Plain " limit ".toList ∧ Plain " offset ".toList := by decide
  unfold limitThenOffset
  rw [String.toList_append, plain_append_iff]
  constructor
  · cases limit with
    | none => decide
    | some l =>
      rw [String.toList_append, plain_append_iff]
      exact ⟨words.1, hl l rfl⟩
  · cases offset with
    | none => decide
    | some o =>
      rw [String.toList_append, plain_append_iff]
      exact ⟨words.2, ho o rfl⟩

/-- A page is written in words and numbers. -/
theorem plain_limitOffset (d : Dialect) (limit offset : Option UInt64) (ordered : Bool) :
    Plain (d.limitOffset limit offset ordered).toList := by
  have number : ∀ n : UInt64, Plain (toString n.toNat).toList := fun n => plain_natText n.toNat
  have numbers : ∀ n : Option UInt64, ∀ s ∈ n.map (fun n => toString n.toNat), Plain s.toList := by
    rintro (_ | n) s hs
    · cases hs
    · cases hs
      exact number n
  have unlimited : Plain "18446744073709551615".toList ∧ Plain "-1".toList := by decide
  unfold limitOffset
  split
  · exact plain_limitThenOffset (by rintro s ⟨⟩; exact unlimited.1) (numbers _)
  · exact plain_limitThenOffset (by rintro s ⟨⟩; exact unlimited.2) (numbers _)
  · decide
  · simp only [String.toList_append, plain_append_iff]
    refine ⟨⟨⟨⟨?_, by decide⟩, ?_⟩, by decide⟩, ?_⟩
    · cases ordered <;> decide
    · cases offset with
      | none => decide
      | some n => exact number n
    · cases limit with
      | none => decide
      | some n =>
        simp only [Option.map_some, String.toList_append, plain_append_iff]
        exact ⟨⟨by decide, number n⟩, by decide⟩
  · exact plain_limitThenOffset (numbers _) (numbers _)

theorem plain_top {d : Dialect} {limit offset : Option UInt64} {text : String}
    (h : d.top limit offset = some text) : Plain text.toList := by
  unfold top at h
  split at h
  · next n =>
    cases h
    rw [String.toList_append, plain_append_iff]
    exact ⟨by decide, plain_natText n.toNat⟩
  · cases h

variable {w : Writer (Except Error)} {l : Lock}

theorem plain_lock (safe : ∀ p ∈ l.parts, p.Safe w) (d : Dialect) : Plain (d.lock l).toList := by
  cases l with
  | update => cases d <;> decide
  | shared => cases d <;> decide
  | raw sql =>
    have given : Plain sql.toList := safe (.verbatim sql) List.mem_cons_self
    have written : Plain (" " ++ sql).toList := by
      rw [String.toList_append, plain_append_iff]
      exact ⟨by decide, given⟩
    cases d with
    | mysql | postgres => exact written
    | sqlite | sqlServer =>
      show Plain "".toList
      decide

theorem plain_tableHint (safe : ∀ p ∈ l.parts, p.Safe w) {d : Dialect} {text : String}
    (h : d.tableHint l = some text) : Plain text.toList := by
  unfold tableHint at h
  split at h
  · cases h
    decide
  · cases h
    decide
  · next sql =>
    cases h
    exact safe (.verbatim text) List.mem_cons_self
  · cases h

end Dialect

/-! ## Clauses -/

variable {w : Writer (Except Error)} {text : String}

/-- A table that is given. -/
theorem Ident.aligned {i : Ident} (safe : ∀ p ∈ i.parts, p.Safe w) (h : w.ident i = .ok text) :
    Aligned w text (sources i.parts) i.bindings :=
  .of_parts (Ident.spelled safe h) i.brought_parts

theorem Ident.columns_aligned {cs : List Ident} (safe : ∀ p ∈ cs.flatMap Ident.parts, p.Safe w)
    (h : w.columns cs = .ok text) :
    Aligned w text (sources (cs.flatMap Ident.parts)) (cs.flatMap Ident.bindings) :=
  .of_parts (Ident.columns_spelled safe h) (by simp)

theorem Ident.columnsOrAll_spelled {cs : List Ident}
    (safe : ∀ p ∈ cs.flatMap Ident.parts, p.Safe w) (h : w.columnsOrAll cs = .ok text) :
    Spelled w text (sources (cs.flatMap Ident.parts)) := by
  cases cs with
  | nil =>
    obtain rfl : "*" = text := pure_eq_ok.1 h
    exact .word "*" rfl
  | cons c cs => exact Ident.columns_spelled safe h

theorem Predicate.whereClause_aligned {ps : List Predicate} (aligned : ∀ p ∈ ps, p.AlignedAlone w)
    (h : w.whereClause ps = .ok text) :
    Aligned w text (sources (partsOfAll ps)) (bindingsOfAll ps) := by
  refine .listClause h (.word _ rfl) ?_ fun inner => aligned_all aligned
  rintro rfl
  exact ⟨rfl, rfl⟩

/-- A join is aligned with the bindings of its table, then of its conditions. -/
theorem Join.aligned {j : Join} (safe : ∀ p ∈ j.table.parts, p.Safe w)
    (aligned : ∀ p ∈ j.clauses, p.AlignedAlone w) (h : w.join j = .ok text) :
    Aligned w text (sources j.parts) j.bindings := by
  simp only [Writer.join, bind_eq_ok, pure_eq_ok] at h
  obtain ⟨table, htable, conditions, hconditions, rfl⟩ := h
  have word : Spelled w (" " ++ j.kind.word ++ " join ") [] := .plain (by cases j.kind <;> decide)
  have joined := (Ident.aligned safe htable).preceded word
  have conditioned : Aligned w conditions (sources (Predicate.partsOfAll j.clauses))
      (Predicate.bindingsOfAll j.clauses) := by
    refine .clause hconditions (.word _ rfl) (fun absent => ?_) fun inner =>
      Predicate.aligned_all aligned
    have none : j.clauses = [] := by
      simp only [Bool.or_eq_false_iff, Bool.not_eq_false', List.isEmpty_iff] at absent
      exact absent.2
    rw [none]
    exact ⟨rfl, rfl⟩
  simpa [parts, bindings] using joined.append conditioned

theorem Join.all_aligned {js : List Join} (safe : ∀ j ∈ js, ∀ p ∈ j.table.parts, p.Safe w)
    (aligned : ∀ j ∈ js, ∀ p ∈ j.clauses, p.AlignedAlone w) (h : w.joins js = .ok text) :
    Aligned w text (sources (js.flatMap Join.parts)) (js.flatMap Join.bindings) := by
  induction js generalizing text with
  | nil =>
    obtain rfl : "" = text := pure_eq_ok.1 h
    exact .empty
  | cons j js ih =>
    simp only [Writer.joins, bind_eq_ok, pure_eq_ok] at h
    obtain ⟨first, hfirst, others, hothers, rfl⟩ := h
    have head := Join.aligned (safe j List.mem_cons_self) (aligned j List.mem_cons_self) hfirst
    have tail := ih (fun k hk => safe k (List.mem_cons_of_mem j hk))
      (fun k hk => aligned k (List.mem_cons_of_mem j hk)) hothers
    simpa using head.append tail

theorem Order.spelled {o : Order} (safe : ∀ p ∈ o.parts, p.Safe w) (h : w.order o = .ok text) :
    Spelled w text (sources o.parts) := by
  cases o with
  | column c descending =>
    simp only [Writer.order, bind_eq_ok, pure_eq_ok] at h
    obtain ⟨column, hcolumn, rfl⟩ := h
    have word : Spelled w (if descending then " desc" else " asc") [] :=
      .plain (by cases descending <;> decide)
    exact (Ident.spelled safe hcolumn).followed word
  | raw f => exact .fragment h (safe (.source (.fragment f)) List.mem_cons_self text h)

/-- The clause that orders rows is aligned with the bindings of the order. -/
theorem Paging.orderBy_aligned {p : Paging} (safe : ∀ q ∈ p.parts, q.Safe w)
    (h : w.orderBy p.orders = .ok text) : Aligned w text (sources p.parts) p.bindings := by
  refine .listClause h (.word _ rfl) (fun none => ?_) fun inner written => ?_
  · simp [parts, bindings, none]
  · refine .of_parts ?_ p.brought_parts
    simp only [bind_eq_ok, pure_eq_ok] at written
    obtain ⟨texts, each, rfl⟩ := written
    rw [parts, sources_flatMap, List.flatMap_def]
    exact .commaList (Spelled.each each fun o ho t ht =>
      Order.spelled (fun q hq => safe q (List.mem_flatMap.2 ⟨o, ho, hq⟩)) ht)

/-! ## What is selected -/

/-- The call of an aggregate function is spelled by the columns. -/
theorem Aggregate.spelled {a : Aggregate} (safe : ∀ p ∈ a.parts, p.Safe w) {distinct : Distinct}
    (h : w.aggregateCall a distinct = .ok text) : Spelled w text (sources a.parts) := by
  simp only [Writer.aggregateCall, bind_eq_ok, pure_eq_ok] at h
  obtain ⟨columnsText, hcolumns, rfl⟩ := h
  have function : Quote.Plain a.function.toList :=
    safe (.verbatim a.function) List.mem_cons_self
  have columns := Ident.columnsOrAll_spelled
    (fun p hp => safe p (List.mem_cons_of_mem _ hp)) hcolumns
  have repeated : Spelled w
      (if distinct != .none && columnsText != "*" then "distinct " ++ columnsText else columnsText)
      (sources (a.columns.flatMap Ident.parts)) := by
    split
    · exact columns.opened "distinct " rfl
    · exact columns
  have opened : Spelled w (a.function ++ "(") [] := .plain (by
    rw [String.toList_append, Quote.plain_append_iff]
    exact ⟨function, by decide⟩)
  have name : Spelled w (w.dialect.quote "aggregate") [] := .own_name (by decide)
  exact ((repeated.preceded opened).closed ") as " rfl).followed name

/-- The word that leaves out repeated rows needs no placeholder. -/
theorem Distinct.spelled {x : Distinct} (safe : ∀ p ∈ x.parts, p.Safe w)
    (h : w.distinct x = .ok text) : Spelled w text [] := by
  cases x with
  | none =>
    obtain rfl : "" = text := pure_eq_ok.1 h
    exact .word "" rfl
  | all =>
    obtain rfl : "distinct " = text := pure_eq_ok.1 h
    exact .word "distinct " rfl
  | on columns =>
    simp only [Writer.distinct] at h
    split at h
    · obtain rfl := pure_eq_ok.1 h
      have names : Spelled w (Text.commaList (columns.map w.dialect.wrap)) [] :=
        .names fun n hn => safe (.name n) (List.mem_map_of_mem hn)
      exact (names.opened "distinct on (" rfl).closed ") " rfl
    · cases h

namespace Slots

variable {s : Slots}

theorem selection_spelled (safe : ∀ p ∈ s.selectionParts, p.Safe w)
    (h : w.selection s = .ok text) : Spelled w text (sources s.selectionParts) := by
  simp only [Writer.selection, bind_eq_ok, pure_eq_ok] at h
  obtain ⟨distinct, hdistinct, columns, hcolumns, rfl⟩ := h
  have first := Distinct.spelled (fun p hp => safe p (List.mem_append_left _ hp)) hdistinct
  have rest := Ident.columnsOrAll_spelled (fun p hp => safe p (List.mem_append_right _ hp)) hcolumns
  rw [selectionParts, sources_append, Distinct.sources_parts]
  refine rest.preceded (.followed ?_ first)
  split
  · next top written =>
    have page : Spelled w top [] := .plain (Dialect.plain_top written)
    exact page.closed " " rfl
  · exact .word "" rfl

/-- The table that a query reads; a lock after it has no placeholder. -/
theorem source_aligned (table : ∀ p ∈ s.table.toList.flatMap Ident.parts, p.Safe w)
    (lock : ∀ p ∈ s.lock.toList.flatMap Lock.parts, p.Safe w) (h : w.source s = .ok text) :
    Aligned w text (sources (s.table.toList.flatMap Ident.parts))
      (s.table.toList.flatMap Ident.bindings) := by
  unfold Writer.source at h
  split at h
  · next none =>
    obtain rfl : "" = text := pure_eq_ok.1 h
    rw [none]
    exact .empty
  · next t given =>
    simp only [bind_eq_ok, pure_eq_ok] at h
    obtain ⟨name, hname, rfl⟩ := h
    have named := Ident.aligned (fun p hp => table p (by simpa [given] using hp)) hname
    rw [given, Option.toList_some, List.flatMap_singleton, List.flatMap_singleton]
    refine (named.opened " from " rfl).followed ?_
    split
    · next hint written =>
      obtain ⟨l, hl, hhint⟩ := Option.bind_eq_some_iff.1 written
      have plain := Dialect.plain_tableHint (fun p hp => lock p (by simpa [hl] using hp)) hhint
      exact (Spelled.plain plain).opened " " rfl
    · exact .word "" rfl

theorem selected_spelled {aggregated : Bool} {limit : Option UInt64}
    (aggregate : ∀ p ∈ s.aggregate.toList.flatMap Aggregate.parts, p.Safe w)
    (selection : ∀ p ∈ s.selectionParts, p.Safe w)
    (h : w.selected s aggregated = .ok (text, limit)) :
    Spelled w text (sources (s.selectedParts aggregated)) := by
  cases given : s.aggregate with
  | none =>
    simp only [Writer.selected, given, bind_eq_ok, pure_eq_ok] at h
    obtain ⟨columns, hcolumns, same⟩ := h
    cases same
    simpa only [selectedParts, given] using selection_spelled selection hcolumns
  | some a =>
    cases aggregated with
    | false =>
      simp only [Writer.selected, given, bind_eq_ok, pure_eq_ok] at h
      obtain ⟨columns, hcolumns, same⟩ := h
      cases same
      simpa only [selectedParts, given] using selection_spelled selection hcolumns
    | true =>
      simp only [Writer.selected, given, bind_eq_ok, pure_eq_ok] at h
      obtain ⟨call, hcall, same⟩ := h
      cases same
      have safe : ∀ p ∈ a.parts, p.Safe w := fun p hp => aggregate p (by simpa [given] using hp)
      simpa only [selectedParts, given] using Aggregate.spelled safe hcall

/-- The bindings of a query after what it selects. -/
def bodyBindings (s : Slots) : List Binding :=
  s.table.toList.flatMap Ident.bindings ++ s.joins.flatMap Join.bindings ++
    Predicate.bindingsOfAll s.wheres ++ s.groups.flatMap Ident.bindings ++
    Predicate.bindingsOfAll s.havings ++ s.page.bindings

/-- **One query.** Without what it is united with, a query is aligned clause by clause. -/
theorem aligned {aggregated : Bool} (safe : ∀ p ∈ s.frame, p.Safe w)
    (aligned : ∀ p ∈ s.predicates, p.AlignedAlone w) (h : w.components s aggregated = .ok text) :
    Aligned w text (sources (s.componentsParts aggregated))
      (brought (s.selectedParts aggregated) ++ s.bodyBindings) := by
  simp only [Writer.components, bind_eq_ok, pure_eq_ok] at h
  obtain ⟨⟨selected, limit⟩, hselected, source, hsource, joins, hjoins, wheres, hwheres,
    groups, hgroups, havings, hhavings, orders, horders, rfl⟩ := h
  simp only [frame, List.forall_mem_append] at safe
  obtain ⟨⟨⟨⟨⟨⟨⟨aggregate, selection⟩, table⟩, lock⟩, joined⟩, grouped⟩, page⟩, combined⟩ := safe
  have hselected : Aligned w selected _ _ :=
    .of_parts (selected_spelled aggregate selection hselected) rfl
  have hsource := source_aligned table lock hsource
  have hjoins := Join.all_aligned (fun j hj p hp => joined p (List.mem_flatMap.2 ⟨j, hj, hp⟩))
    (fun j hj p hp => aligned p (by simp [predicates]; exact .inl ⟨j, hj, hp⟩)) hjoins
  have hwheres := Predicate.whereClause_aligned
    (fun p hp => aligned p (by simp [predicates, hp])) hwheres
  have hgroups : Aligned w groups (sources (s.groups.flatMap Ident.parts))
      (s.groups.flatMap Ident.bindings) :=
    .listClause hgroups (.word _ rfl) (fun none => by simp [none]) fun inner =>
      Ident.columns_aligned grouped
  have hhavings : Aligned w havings (sources (Predicate.partsOfAll s.havings))
      (Predicate.bindingsOfAll s.havings) :=
    .listClause hhavings (.word _ rfl)
      (fun none => by simp [none, Predicate.partsOfAll, Predicate.bindingsOfAll]) fun inner =>
      Predicate.aligned_all fun p hp => aligned p (by simp [predicates, hp])
  have horders := Paging.orderBy_aligned page horders
  have paged : Spelled w (w.dialect.limitOffset limit s.page.offset (!s.page.orders.isEmpty)) [] :=
    .plain (Dialect.plain_limitOffset _ _ _ _)
  have selecting := hselected.opened "select " rfl
  have upToWheres := ((selecting.append hsource).append hjoins).append hwheres
  have upToOrders := ((upToWheres.append hgroups).append hhavings).append horders
  refine ((upToOrders.followed paged).followed ?_).congr (by simp [componentsParts, bodyParts])
    (by simp [bodyBindings, brought])
  split
  · next l given =>
    exact .plain (Dialect.plain_lock (fun p hp => lock p (by simpa [given] using hp)) _)
  · exact .word "" rfl

end Slots

/-! ## United queries -/

/-- What a union puts around a member has no placeholder. -/
theorem Aligned.wrapUnion {ss : List Source} {bs : List Binding} (h : Aligned w text ss bs) :
    Aligned w (w.dialect.wrapUnion text) ss bs := by
  have named : Spelled w (w.dialect.quote "temp_table") [] := .own_name (by decide)
  unfold Dialect.wrapUnion
  split
  · exact (h.opened "(" rfl).closed ")" rfl
  · exact (h.opened "(" rfl).closed ")" rfl
  · exact (h.opened "select * from (" rfl).closed ")" rfl
  · exact ((h.opened "select * from (" rfl).closed ") as " rfl).followed named

/-- Nor has what asks whether there are rows. -/
theorem Aligned.hasRows {ss : List Source} {bs : List Binding} (h : Aligned w text ss bs) :
    Aligned w (w.dialect.hasRows text) ss bs := by
  have named : Spelled w (w.dialect.quote "exists") [] := .own_name (by decide)
  unfold Dialect.hasRows
  split
  · exact ((h.opened "select case when exists(" rfl).closed ") then 1 else 0 end as " rfl).followed named
  · exact ((h.opened "select exists(" rfl).closed ") as " rfl).followed named

namespace Slots

theorem bindings_alone (s : Slots) :
    brought (s.selectedParts true) ++ s.bodyBindings = s.bindings false := by
  cases given : s.aggregate with
  | none => simp [selectedParts, selectionParts, bodyBindings, bindings, given]
  | some a => simp [selectedParts, bodyBindings, bindings, given]

theorem bindings_united (s : Slots) :
    brought (s.aggregate.toList.flatMap Aggregate.parts) ++
      (brought (s.selectedParts false) ++ s.bodyBindings) = s.bindings true := by
  cases given : s.aggregate with
  | none => simp [selectedParts, selectionParts, bodyBindings, bindings, given]
  | some a => simp [selectedParts, selectionParts, bodyBindings, bindings, given]

end Slots

namespace Query

mutual

/-- A well formed query is aligned with its bindings, and so are those that it is united with. -/
theorem aligned : ∀ q : Query, q.WellFormed → (∀ p ∈ q.frame, p.Safe w) →
    (∀ p ∈ q.predicates, p.AlignedAlone w) → ∀ {text : String}, w.select q = .ok text →
    Aligned w text (sources q.parts) q.selectBindings
  | ⟨slots, [], _, _⟩, formed, safe, aligned, text, h => by
    rw [Writer.select] at h
    have one := Slots.aligned (fun p hp => safe p (by simp [frame, hp]))
      (fun p hp => aligned p (by simp [predicates, hp])) h
    have unordered : slots.combined.orders = [] := formed.ordered rfl
    refine one.congr (by rw [parts]) ?_
    rw [slots.bindings_alone]
    simp [selectBindings, membersBindings, Paging.bindings, unordered]
  | ⟨slots, u :: us, _, _⟩, formed, safe, aligned, text, h => by
    simp only [Writer.select, bind_eq_ok] at h
    obtain ⟨first, hfirst, others, hothers, orders, horders, h⟩ := h
    have frame : ∀ p ∈ slots.frame, p.Safe w := fun p hp => safe p (by simp [frame, hp])
    have hfirst := Slots.aligned frame (fun p hp => aligned p (by simp [predicates, hp])) hfirst
    have hothers := membersAligned (u :: us) formed.members
      (fun p hp => safe p (by simp [Query.frame, hp]))
      (fun p hp => aligned p (by simp [predicates, hp])) hothers
    have horders := Paging.orderBy_aligned (fun p hp => frame p (by simp [Slots.frame, hp])) horders
    have paged : Spelled w (w.dialect.limitOffset slots.combined.limit slots.combined.offset
        (!slots.combined.orders.isEmpty)) [] := .plain (Dialect.plain_limitOffset _ _ _ _)
    have whole := ((hfirst.wrapUnion.append hothers).append horders).followed paged
    cases given : slots.aggregate with
    | none =>
      rw [given] at h
      obtain rfl := pure_eq_ok.1 h
      refine whole.congr (by simp [parts, given]) ?_
      simp [selectBindings, ← slots.bindings_united, given]
    | some a =>
      rw [given] at h
      simp only [bind_eq_ok, pure_eq_ok] at h
      obtain ⟨call, hcall, rfl⟩ := h
      have called : Spelled w call (sources a.parts) :=
        Aggregate.spelled (fun p hp => frame p (by simp [Slots.frame, given, hp])) hcall
      have counted : Aligned w call (sources a.parts) (brought a.parts) := .of_parts called rfl
      have named : Spelled w (w.dialect.quote "temp_table") [] := .own_name (by decide)
      have before := (counted.opened "select " rfl).closed " from (" rfl
      have around := (before.append whole).closed ") as " rfl
      refine (around.followed named).congr (by simp [parts, given]) ?_
      simp [selectBindings, ← slots.bindings_united, given]

theorem membersAligned : ∀ us : List (Bool × Query), (∀ u ∈ us, u.2.WellFormed) →
    (∀ p ∈ membersFrame us, p.Safe w) → (∀ p ∈ membersPredicates us, p.AlignedAlone w) →
    ∀ {text : String}, w.members us = .ok text →
    Aligned w text (sources (membersParts us)) (membersBindings us)
  | [], _, _, _, text, h => by
    obtain rfl : "" = text := pure_eq_ok.1 h
    exact .empty
  | (all, q) :: us, formed, safe, aligned, text, h => by
    simp only [Writer.members, bind_eq_ok, pure_eq_ok] at h
    obtain ⟨first, hfirst, others, hothers, rfl⟩ := h
    have hfirst := Query.aligned q (formed (all, q) List.mem_cons_self)
      (fun p hp => safe p (by simp [membersFrame, hp]))
      (fun p hp => aligned p (by simp [membersPredicates, hp])) hfirst
    have hothers := membersAligned us (fun u hu => formed u (List.mem_cons_of_mem _ hu))
      (fun p hp => safe p (by simp [membersFrame, hp]))
      (fun p hp => aligned p (by simp [membersPredicates, hp])) hothers
    have word : Spelled w (if all then " union all " else " union ") [] :=
      .plain (by cases all <;> decide)
    simpa [membersParts, membersBindings] using (hfirst.wrapUnion.preceded word).append hothers

end

/-- **Queries are aligned.** Let the frame of a built query be safe and let each of its predicates
be aligned on its own. Then the text that selects its rows, or asks whether there are any, has one
placeholder for each binding that the query collects, and is spelled by sources that have these
bindings in order. -/
theorem select_aligned {d : Dialect} {ctx : Context} {tables : Tables} {q : Query} {text : String}
    (built : q.Built) (safe : ∀ part ∈ q.frame, part.Safe (.reading d ctx tables))
    (aligned : ∀ p ∈ q.predicates, p.AlignedAlone (.reading d ctx tables))
    (written : (((Writer.remembering d ctx).select q).run.run tables).1 = .ok text ∨
      (((Writer.remembering d ctx).hasRows q).run.run tables).1 = .ok text) :
    countPlaceholders d.escapesBackslash text = q.selectBindings.length ∧
      Aligned (.reading d ctx tables) text (sources q.parts) q.selectBindings := by
  have writers := Tables.recalling_writers d ctx tables
  have whole : Aligned (.reading d ctx tables) text (sources q.parts) q.selectBindings := by
    rcases written with read | asked
    · rw [Tables.recalled (writers.select q)] at read
      exact q.aligned built.wellFormed safe aligned read
    · rw [Tables.recalled (writers.hasRows q)] at asked
      simp only [Writer.hasRows, bind_eq_ok, pure_eq_ok] at asked
      obtain ⟨inner, read, rfl⟩ := asked
      exact (q.aligned built.wellFormed safe aligned read).hasRows
  exact ⟨whole.count_eq, whole⟩

/-- The count of the rows of a union, which is ordered and limited as a whole. -/
def countOfUnion : Query :=
  let chosen : Predicate :=
    .among .and (.name "a") false [.bound (.literal (.int 1)), .bound (.literal (.int 2))]
  let first : Query := (({} : Query).fromTable (.name "t")).addWhere chosen
  let second : Query :=
    (({} : Query).select [.raw ⟨.text 0 (.native [.literal (.int 3)]) "? as a", []⟩]).fromTable
      (.name "u")
  let ordered : Query := (first.union true second).orderBy
    (.raw ⟨.text 1 (.native [.literal (.int 4)]) "a + ?", []⟩)
  (ordered.limit 5).withAggregate ⟨"count", [.name "*"]⟩

theorem select_countOfUnion_aligned :
    countOfUnion.Built ∧ (∀ part ∈ countOfUnion.frame, part.Safe (.reading .sqlServer {} {})) ∧
      (∀ p ∈ countOfUnion.predicates, p.AlignedAlone (.reading .sqlServer {} {})) ∧
      ∃ text, (((Writer.remembering .sqlServer {}).select countOfUnion).run.run {}).1 = .ok text ∧
        countPlaceholders false text = countOfUnion.selectBindings.length := by
  have built : countOfUnion.Built :=
    .withAggregate _ (.limit _ (.orderBy _ (.union _ (.addWhere _ (.fromTable _ .empty))
      (.fromTable _ (.select _ .empty)))))
  have safe : ∀ part ∈ countOfUnion.frame, part.Safe (.reading .sqlServer {} {}) := by
    decide +kernel
  have aligned : ∀ p ∈ countOfUnion.predicates, p.AlignedAlone (.reading .sqlServer {} {}) := by
    intro p hp
    obtain rfl := List.mem_singleton.1 hp
    exact Predicate.aligned_of_safe (by decide +kernel) rfl
  have written : (((Writer.remembering .sqlServer {}).select countOfUnion).run.run {}).1 =
      .ok ("select count(*) as [aggregate] from (select * from (select * from [t] where [a] in " ++
        "(?, ?)) as [temp_table] union all select * from (select ? as a from [u]) as " ++
        "[temp_table] order by a + ? offset 0 rows fetch next 5 rows only) as [temp_table]") := by
    decide +kernel
  exact ⟨built, safe, aligned, _, written, (select_aligned built safe aligned (.inl written)).1⟩

end Query

end SqlFragments
