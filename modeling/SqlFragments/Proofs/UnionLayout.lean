import SqlFragments.Proofs.Evaluations
import SqlFragments.Proofs.PageRouting

/-!
# The layout of united queries

The text of a united query has five places (`Layout`): what opens the whole, the first member, the
members that are united with it, the ending, where order and page of the whole are, and what closes
the whole. `Writer.select_of_united` puts the text together from them.

Calls about order and page, made once the query is united, change the ending and no other place, and
put the bindings of the orders behind all bindings there are (`Query.layout_of_paging`,
`Query.selectBindings_of_paging`). Calls made before stay in the first member, which is written as
the query is that was made without the calls about the whole (`Query.Beside.first_eq`).
-/

namespace SqlFragments

/-- The places of the text of a united query. -/
structure Layout where
  opening : String
  first : String
  others : List (Bool × String)
  ending : String
  closing : String
  deriving DecidableEq, Repr

namespace Layout

/-- The members after the first, each behind the word that unites it. -/
def joined (d : Dialect) : List (Bool × String) → String
  | [] => ""
  | (all, text) :: rest =>
    (if all then " union all " else " union ") ++ d.wrapUnion text ++ joined d rest

/-- The places in their order. -/
def text (d : Dialect) (l : Layout) : String :=
  l.opening ++ (d.wrapUnion l.first ++ joined d l.others ++ l.ending) ++ l.closing

end Layout

/-! ## What is written at the places -/

namespace Writer

variable {w : Writer (Except Error)}

/-- Order and page of the whole. -/
def ending (w : Writer (Except Error)) (p : Paging) : Except Error String := do
  let orders ← w.orderBy p.orders
  return orders ++ w.dialect.limitOffset p.limit p.offset (!p.orders.isEmpty)

/-- United queries, each as it is written alone. -/
def memberTexts (w : Writer (Except Error)) :
    List (Bool × Query) → Except Error (List (Bool × String))
  | [] => pure []
  | (all, q) :: rest => do
    let first ← w.select q
    let others ← w.memberTexts rest
    return (all, first) :: others

/-- What opens and closes the whole: the query for an aggregate of its rows, where there is one. -/
def around (w : Writer (Except Error)) (s : Slots) : Except Error (String × String) :=
  match s.aggregate with
  | some a => do
    let call ← w.aggregateCall a s.distinct
    return ("select " ++ call ++ " from (", ") as " ++ w.dialect.quote "temp_table")
  | none => pure ("", "")

/-- The places of a united query. -/
def layout (w : Writer (Except Error)) (q : Query) : Except Error Layout := do
  let first ← w.components q.slots false
  let others ← w.memberTexts q.unions
  let ending ← w.ending q.slots.combined
  let (opening, closing) ← w.around q.slots
  return { opening, first, others, ending, closing }

theorem layout_eq_ok {q : Query} {l : Layout} :
    w.layout q = .ok l ↔
      w.components q.slots false = .ok l.first ∧ w.memberTexts q.unions = .ok l.others ∧
        w.ending q.slots.combined = .ok l.ending ∧
          w.around q.slots = .ok (l.opening, l.closing) := by
  simp only [layout, bind_eq_ok, pure_eq_ok]
  constructor
  · rintro ⟨first, hfirst, others, hothers, ending, hending, around, haround, rfl⟩
    exact ⟨hfirst, hothers, hending, haround⟩
  · rintro ⟨hfirst, hothers, hending, haround⟩
    exact ⟨_, hfirst, _, hothers, _, hending, _, haround, rfl⟩

theorem members_eq (us : List (Bool × Query)) :
    w.members us = (w.memberTexts us).map (Layout.joined w.dialect) := by
  induction us with
  | nil => rw [members, memberTexts]; rfl
  | cons u us ih =>
    obtain ⟨all, q⟩ := u
    rw [members, memberTexts, ih]
    cases w.select q with
    | error e => rfl
    | ok first => cases w.memberTexts us <;> rfl

/-- **A united query is written place by place.** -/
theorem select_of_united {q : Query} (united : q.isUnion = true) :
    w.select q = (w.layout q).map (Layout.text w.dialect) := by
  obtain ⟨slots, us, index, fault⟩ := q
  cases us with
  | nil => cases united
  | cons u us =>
    change _ = Layout.text w.dialect <$> w.layout _
    have others : w.members (u :: us) = Layout.joined w.dialect <$> w.memberTexts (u :: us) :=
      members_eq _
    simp only [select, layout, ending, around, others, map_eq_pure_bind, bind_assoc, pure_bind]
    cases slots.aggregate with
    | none => simp only [pure_bind, Layout.text, String.append_assoc, String.empty_append,
        String.append_empty]
    | some a => simp only [bind_assoc, pure_bind, Layout.text, String.append_assoc]

/-- Orders that are written with others behind them are written without these. -/
theorem exists_orderBy_of_append {orders more : List Order} {text : String}
    (written : w.orderBy (orders ++ more) = .ok text) :
    ∃ before, w.orderBy orders = .ok before := by
  cases orders with
  | nil => exact ⟨"", rfl⟩
  | cons order orders =>
    simp only [orderBy, clause, List.cons_append, List.isEmpty_cons, Bool.not_false, if_true,
      bind_eq_ok, pure_eq_ok] at written ⊢
    obtain ⟨-, ⟨texts, all, -⟩, -⟩ := written
    rw [← List.cons_append, each_append, bind_eq_ok] at all
    obtain ⟨first, own, -⟩ := all
    exact ⟨_, _, ⟨first, own, rfl⟩, rfl⟩

theorem exists_ending_of_after {p : Paging} {calls : List (Query.Call Query)} {text : String}
    (written : w.ending (p.after calls) = .ok text) : ∃ before, w.ending p = .ok before := by
  rw [ending, bind_eq_ok] at written
  obtain ⟨orders, ordered, -⟩ := written
  rw [Paging.orders_after] at ordered
  obtain ⟨before, own⟩ := exists_orderBy_of_append ordered
  exact ⟨_, bind_eq_ok.2 ⟨before, own, rfl⟩⟩

/-- A query without an aggregate is written as it is within a union. -/
theorem components_of_plain {s : Slots} (plain : s.aggregate = none) :
    w.components s true = w.components s false := by
  have same : w.selected s true = w.selected s false := by
    unfold selected
    rw [plain]
  rw [components, components, same]

end Writer

namespace Query

/-- The text of a query that is read, in a context, with tables that remember what they resolve. -/
def rendered (d : Dialect) (ctx : Context) (tables : Tables) (q : Query) : Except Error String :=
  (((Writer.remembering d ctx).select q).run.run tables).1

variable {d : Dialect} {ctx : Context} {tables : Tables} {q alone : Query}

theorem rendered_eq (q : Query) :
    q.rendered d ctx tables = (Writer.reading d ctx tables).select q :=
  Tables.recalled ((Tables.recalling_writers d ctx tables).select q)

/-- The bindings of a query: its own, those of the members, those of the whole. -/
theorem selectBindings_eq (q : Query) : q.selectBindings =
    q.slots.bindings q.isUnion ++ membersBindings q.unions ++ q.slots.combined.bindings := by
  cases q
  rw [selectBindings]
  rfl

/-- **Calls about order and page change the ending alone**, once the query is united. -/
theorem layout_of_paging {w : Writer (Except Error)} (united : q.isUnion = true)
    {calls : List (Call Query)} (paging : ∀ call ∈ calls, call.isPaging = true) (after : Layout) :
    w.layout (q.calls calls) = .ok after ↔
      ∃ before ending, w.layout q = .ok before ∧
        w.ending (q.slots.combined.after calls) = .ok ending ∧ after = { before with ending } := by
  obtain ⟨slots, unions⟩ := calls_paging united paging
  have first : w.components (q.calls calls).slots false = w.components q.slots false := by
    rw [slots]
    rfl
  have around : w.around (q.calls calls).slots = w.around q.slots := by
    rw [slots]
    rfl
  have combined : (q.calls calls).slots.combined = q.slots.combined.after calls := by rw [slots]
  rw [Writer.layout_eq_ok, first, around, combined, unions]
  constructor
  · rintro ⟨hfirst, hothers, hending, haround⟩
    obtain ⟨ending, written⟩ := Writer.exists_ending_of_after hending
    exact ⟨{ after with ending }, after.ending,
      Writer.layout_eq_ok.2 ⟨hfirst, hothers, written, haround⟩, hending, rfl⟩
  · rintro ⟨before, ending, written, hending, rfl⟩
    obtain ⟨hfirst, hothers, -, haround⟩ := Writer.layout_eq_ok.1 written
    exact ⟨hfirst, hothers, hending, haround⟩

/-- Calls about order and page put the bindings of the orders behind all others. -/
theorem selectBindings_of_paging (united : q.isUnion = true) {calls : List (Call Query)}
    (paging : ∀ call ∈ calls, call.isPaging = true) :
    (q.calls calls).selectBindings =
      q.selectBindings ++ (calls.filterMap Call.order?).flatMap Order.bindings := by
  obtain ⟨slots, unions⟩ := calls_paging united paging
  have own : (q.calls calls).slots.bindings true = q.slots.bindings true := by
    rw [slots]
    rfl
  rw [selectBindings_eq, selectBindings_eq, (calls_united united calls).1, united, own, unions,
    slots, Paging.bindings_after, ← List.append_assoc]

namespace Beside

/-- The first member is written as the query beside the whole is written alone. -/
theorem first_eq {w : Writer (Except Error)} (h : q.Beside alone)
    (plain : alone.slots.aggregate = none) : w.components q.slots false = w.select alone := by
  have same : w.components q.slots false = w.components alone.slots false := by
    rw [← h.slots]
    rfl
  have apart := h.apart
  obtain ⟨slots, us, index, fault⟩ := alone
  cases us with
  | cons u us => cases apart
  | nil => rw [same, Writer.select, Writer.components_of_plain plain]

/-- The bindings of the query beside the whole come first. -/
theorem bindings_isPrefix (h : q.Beside alone) (plain : alone.slots.aggregate = none)
    (unpaged : alone.slots.combined = {}) : alone.selectBindings <+: q.selectBindings := by
  have unaggregated (s : Slots) (united : Bool) (plain : s.aggregate = none) :
      s.bindings united = s.bindings true := by
    rw [Slots.bindings, Slots.bindings, plain]
    rfl
  have same : alone.slots.bindings true = q.slots.bindings true := by
    rw [← h.slots]
    rfl
  have none : alone.unions = [] := by simpa [isUnion] using h.apart
  have own : alone.selectBindings = q.slots.bindings true := by
    rw [selectBindings_eq, unaggregated _ _ plain, none, unpaged, same]
    simp [membersBindings, Paging.bindings]
  rw [own, selectBindings_eq, h.united, List.append_assoc]
  exact List.prefix_append _ _

end Beside

/-- No calls set an aggregate. -/
theorem aggregate_calls (q : Query) (calls : List (Call Query)) :
    (q.calls calls).slots.aggregate = q.slots.aggregate := by
  induction calls generalizing q with
  | nil => rfl
  | cons call calls ih => exact (ih (q.call call)).trans (q.aggregate_call call)

/-- **After a union, order and page are those of the whole.** Calls about them, made on a united
query, change the ending of its text and no other place, and put bindings behind all that there are.
Calls made before the first union stay in the first member, which is written as the query of these
calls is alone, with those about itself that come later. -/
theorem paging_after_union (d : Dialect) (ctx : Context) (tables : Tables) :
    let w := Writer.reading d ctx tables
    (∀ (q : Query) (calls : List (Call Query)), q.isUnion = true →
      (∀ call ∈ calls, call.isPaging = true) →
      let added := (calls.filterMap Call.order?).flatMap Order.bindings
      q.rendered d ctx tables = (w.layout q).map (Layout.text d) ∧
      (q.calls calls).rendered d ctx tables = (w.layout (q.calls calls)).map (Layout.text d) ∧
      (∀ after, w.layout (q.calls calls) = .ok after ↔
        ∃ before ending, w.layout q = .ok before ∧
          w.ending (q.slots.combined.after calls) = .ok ending ∧ after = { before with ending }) ∧
      (q.calls calls).selectBindings = q.selectBindings ++ added ∧
      ∀ cells, ((Binding.evaluateAll (q.calls calls).selectBindings).run cells).1 =
        ((Binding.evaluateAll q.selectBindings).run cells).1 ++
          ((Binding.evaluateAll added).run ((Binding.evaluateAll q.selectBindings).run cells).2).1) ∧
    ∀ (before : List (Call Query)) (all : Bool) (member : Query) (later : List (Call Query)),
      (∀ call ∈ before, call.isUnion = false) →
      let q := ((({} : Query).calls before).union all member).calls later
      let alone := ({} : Query).calls (before ++ later.filter Call.isOwn)
      q.slots.page = ({} : Paging).after before ∧ q.slots.combined = ({} : Paging).after later ∧
      (∀ l, w.layout q = .ok l → alone.rendered d ctx tables = .ok l.first) ∧
      alone.selectBindings <+: q.selectBindings := by
  intro w
  constructor
  · intro q calls united paging added
    have later : (q.calls calls).isUnion = true := (calls_united united calls).1
    have bindings := selectBindings_of_paging united paging
    refine ⟨?_, ?_, layout_of_paging united paging, bindings, fun cells => ?_⟩
    · rw [rendered_eq, Writer.select_of_united united]
      rfl
    · rw [rendered_eq, Writer.select_of_united later]
      rfl
    · rw [bindings, Binding.evaluateAll_append]
  · intro before all member later uniting q alone
    obtain ⟨apart, page, combined⟩ := calls_apart (q := {}) rfl uniting
    obtain ⟨-, whole, outside⟩ :=
      calls_united ((({} : Query).calls before).isUnion_union all member) later
    have beside : q.Beside alone := by
      have further := (Beside.of_union apart all member).calls later
      rwa [← calls_append] at further
    have plain : alone.slots.aggregate = none := aggregate_calls {} _
    have unpaged : alone.slots.combined = {} := by
      refine (calls_apart (q := {}) rfl fun call made => ?_).2.2
      rcases List.mem_append.1 made with early | late
      · exact uniting call early
      · exact (Call.isOwn_iff.1 (List.mem_filter.1 late).2).2
    refine ⟨?_, ?_, fun l written => ?_, beside.bindings_isPrefix plain unpaged⟩
    · rw [whole, slots_union, page]
    · rw [outside, slots_union, combined]
    · rw [rendered_eq, ← beside.first_eq plain]
      exact (Writer.layout_eq_ok.1 written).1

/-- The first rows of a table in an order, with all rows of another, in an order that counts. -/
theorem topRowsUnited_fetched :
    let before : List (Call Query) :=
      [.fromTable (.name "a"), .orderBy (.column (.name "id") false), .limit 5]
    let member : Query := ({} : Query).call (.fromTable (.name "b"))
    let five : Binding := .literal (.int 5)
    let later : List (Call Query) :=
      [.orderBy (.raw ⟨.text 0 (.native [five]) "id + ?", []⟩), .limit 10, .offset 20]
    let q := (({} : Query).calls before).union true member
    let members := "select * from (select top 5 * from [a] order by [id] asc) as [temp_table]" ++
      " union all select * from (select * from [b]) as [temp_table]"
    q.isUnion = true ∧ (∀ call ∈ later, call.isPaging = true) ∧
      (∀ call ∈ before, call.isUnion = false) ∧
      q.rendered .sqlServer {} {} = .ok members ∧
      (q.calls later).rendered .sqlServer {} {} =
        .ok (members ++ " order by id + ? offset 20 rows fetch next 10 rows only") ∧
      (q.calls later).selectBindings = [five] ∧
      (q.calls later).slots.page = ({} : Paging).after before := by
  intro before member five later q members
  have united : q.isUnion = true := rfl
  have paging : ∀ call ∈ later, call.isPaging = true := by decide
  have uniting : ∀ call ∈ before, call.isUnion = false := by decide
  obtain ⟨routed, kept⟩ := paging_after_union .sqlServer {} {}
  refine ⟨united, paging, uniting, by decide +kernel, by decide +kernel, ?_, ?_⟩
  · exact (routed q later united paging).2.2.2.1
  · exact (kept before true member later uniting).1

end Query

end SqlFragments
