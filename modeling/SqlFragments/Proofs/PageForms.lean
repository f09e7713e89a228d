import SqlFragments.Proofs.Phases

/-!
# Pages on SQL Server

SQL Server takes the page of a query in one of two forms: `top` behind `select`, or a tail of an
offset and perhaps a number of rows behind the clause that orders the query. A `PageForm` is one of
them, or none, so no level of a query can have both, and a tail has the order that it needs.

`Writer.leveled` writes a query without an aggregate level by level, each with its page in the form
of `Paging.form`. That is how a query is written for SQL Server (`Query.select_eq_leveled`). But
where repeated rows are left out and the page is that of `top`, the words come as `top 5 distinct`,
and SQL Server takes them only as `distinct top 5`. `Query.leveled_agreeing` says that this is the only
difference between what is written and what is taken.
-/

namespace SqlFragments

/-- How a level of a query asks for its page: all rows; the first rows; or rows after an offset, which
needs an order. -/
inductive PageForm where
  | all (orders : Option String)
  | top (n : UInt64) (orders : Option String)
  | tail (orders : String) (offset : UInt64) (rows : Option UInt64)

namespace PageForm

/-- What stands between `select` and the columns. -/
def front : PageForm → String
  | top n _ => "top " ++ toString n.toNat ++ " "
  | _ => ""

/-- The clause that orders a level. -/
def ordered : Option String → String
  | some orders => " order by " ++ orders
  | none => ""

/-- The end of the level. -/
def back : PageForm → String
  | all orders | top _ orders => ordered orders
  | tail orders offset rows =>
    ordered orders ++ " offset " ++ toString offset.toNat ++ " rows" ++
      match rows with
      | some n => " fetch next " ++ toString n.toNat ++ " rows only"
      | none => ""

/-- The words between `select` and the columns as they are written. -/
def topFirst (top distinct : String) : String := top ++ distinct

/-- The words between `select` and the columns as SQL Server takes them. -/
def distinctFirst (top distinct : String) : String := distinct ++ top

end PageForm

/-- The form of a page. The first rows are asked for behind `select`, where a level has one of its
own; rows without an order get one without effect, where they need it. -/
def Paging.form (leading : Bool) (p : Paging) (orders : Option String) : PageForm :=
  match p.limit, p.offset with
  | none, none => .all orders
  | some n, none =>
    if leading then .top n orders else .tail (orders.getD "(select 0)") 0 (some n)
  | rows, some offset => .tail (orders.getD "(select 0)") offset rows

/-- What SQL Server is given for the order and the page at the end of a level. -/
theorem PageForm.back_tail (orders : Option String) (offset rows : Option UInt64)
    (paged : rows.isSome ∨ offset.isSome) :
    (tail (orders.getD "(select 0)") (offset.getD 0) rows).back =
      ordered orders ++ Dialect.sqlServer.limitOffset rows offset orders.isSome := by
  have zero : toString (0 : UInt64).toNat = "0" := rfl
  have effectless : " order by (select 0)" = " order by " ++ "(select 0)" := rfl
  cases orders <;> cases offset <;> cases rows
  case none.none.none | some.none.none => simp at paged
  all_goals
    simp only [back, ordered, Dialect.limitOffset, effectless, zero, Option.getD_some,
      Option.getD_none, Option.map_some, Option.map_none, Option.isSome_some, Option.isSome_none,
      if_true, Bool.false_eq_true, if_false, String.append_assoc, String.append_empty,
      String.empty_append]

/-- What SQL Server is given for a page: the words behind `select`, and the order and the page at the
end of a level. -/
theorem Paging.form_leading (p : Paging) (orders : Option String) :
    (p.form true orders).front =
        (match Dialect.sqlServer.top p.limit p.offset with
          | some top => top ++ " "
          | none => "") ∧
      (p.form true orders).back = PageForm.ordered orders ++
        Dialect.sqlServer.limitOffset
          (if (Dialect.sqlServer.top p.limit p.offset).isSome then none else p.limit) p.offset
          orders.isSome := by
  obtain ⟨_, limit, offset⟩ := p
  cases offset with
  | none => cases limit <;> exact ⟨rfl, String.append_empty.symm⟩
  | some offset =>
    have tail := PageForm.back_tail orders (some offset) limit (.inr rfl)
    cases limit <;> exact ⟨rfl, tail⟩

/-- What SQL Server is given for the page of a united whole. -/
theorem Paging.form_whole (p : Paging) (orders : Option String) :
    (p.form false orders).back = PageForm.ordered orders ++
      Dialect.sqlServer.limitOffset p.limit p.offset orders.isSome := by
  obtain ⟨_, limit, offset⟩ := p
  cases offset with
  | none =>
    cases limit with
    | none => exact String.append_empty.symm
    | some limit => exact PageForm.back_tail orders none (some limit) (.inl rfl)
  | some offset =>
    have tail := PageForm.back_tail orders (some offset) limit (.inr rfl)
    cases limit <;> exact tail

/-! ## Queries level by level -/

namespace Writer

variable (w : Writer (Except Error))

/-- What a level is ordered by, if it is ordered. -/
def orderList (orders : List Order) : Except Error (Option String) :=
  if orders.isEmpty then pure none else do return some (Text.commaList (← each w.order orders))

/-- A level between its columns and its order. -/
def body (s : Slots) : Except Error String := do
  let source ← w.source s
  let joins ← w.joins s.joins
  let wheres ← w.whereClause s.wheres
  let groups ← clause (!s.groups.isEmpty) " group by " (w.columns s.groups)
  let havings ← clause (!s.havings.isEmpty) " having " (w.predicates s.havings)
  return source ++ joins ++ wheres ++ groups ++ havings

/-- A level with its page in one form, where `arrange` puts the words of the page and those that leave
out repeated rows in front of the columns. -/
def level (arrange : String → String → String) (s : Slots) : Except Error String := do
  let distinct ← w.distinct s.distinct
  let columns ← w.columnsOrAll s.columns
  let body ← w.body s
  let orders ← w.orderList s.page.orders
  let form := s.page.form true orders
  return "select " ++ arrange form.front distinct ++ columns ++ body ++ form.back

mutual

/-- A query without an aggregate, level by level. The page of a united whole comes last. -/
def leveled (arrange : String → String → String) : Query → Except Error String
  | ⟨slots, [], _, _⟩ => w.level arrange slots
  | ⟨slots, u :: us, _, _⟩ => do
    let first ← w.level arrange slots
    let others ← leveledMembers arrange (u :: us)
    let orders ← w.orderList slots.combined.orders
    return w.dialect.wrapUnion first ++ others ++ (slots.combined.form false orders).back

/-- The members of a union after the first, level by level. -/
def leveledMembers (arrange : String → String → String) :
    List (Bool × Query) → Except Error String
  | [] => pure ""
  | (all, q) :: rest => do
    let first ← leveled arrange q
    let others ← leveledMembers arrange rest
    return (if all then " union all " else " union ") ++ w.dialect.wrapUnion first ++ others

end

end Writer

namespace Query

mutual

/-- The slots of all levels of a query. -/
def levels : Query → List Slots
  | ⟨slots, unions, _, _⟩ => slots :: memberLevels unions

/-- The slots of all levels of united queries. -/
def memberLevels : List (Bool × Query) → List Slots
  | [] => []
  | (_, q) :: rest => q.levels ++ memberLevels rest

end

end Query

section Written

variable {w : Writer (Except Error)}

theorem Writer.orderBy_eq (w : Writer (Except Error)) (orders : List Order) :
    w.orderBy orders = PageForm.ordered <$> w.orderList orders := by
  unfold orderBy orderList clause
  cases orders.isEmpty <;> simp [PageForm.ordered]

/-- There is something to order by where there are orders. -/
theorem Writer.orderList_congr {α : Type} {orders : List Order}
    {f g : Option String → Except Error α}
    (same : ∀ list, list.isSome = !orders.isEmpty → f list = g list) :
    w.orderList orders >>= f = w.orderList orders >>= g := by
  unfold orderList
  split
  · next nothing => exact same none (by simp [nothing])
  · next something =>
    simp only [bind_assoc, pure_bind]
    exact bind_congr fun texts => same _ (by simp [something])

/-- A level is written for SQL Server with its page in one form. -/
theorem Slots.components_eq_level (server : w.dialect = .sqlServer) {s : Slots} (aggregated : Bool)
    (rows : s.aggregate = none) :
    w.components s aggregated = w.level PageForm.topFirst s := by
  unfold Writer.components Writer.selected Writer.selection Writer.level Writer.body
  rw [rows, w.orderBy_eq, server]
  simp only [bind_assoc, pure_bind, map_eq_pure_bind]
  -- Both write the same parts in the same order; the page comes with the last of them.
  refine bind_congr fun distinct => bind_congr fun columns => bind_congr fun source =>
    bind_congr fun joins => bind_congr fun wheres => bind_congr fun groups =>
    bind_congr fun havings => Writer.orderList_congr fun orders ordered => congrArg pure ?_
  obtain ⟨front, back⟩ := s.page.form_leading orders
  rw [front, back, ordered]
  -- The lock stands after the table and nowhere else.
  cases s.lock <;> cases Dialect.sqlServer.top s.page.limit s.page.offset <;>
    simp only [PageForm.topFirst, Dialect.lock, String.append_assoc, String.append_empty]

namespace Query

mutual

/-- **Queries are written level by level.** Each level has its page in one form, with `top` before
the word that leaves out repeated rows. -/
theorem select_eq_leveled (server : w.dialect = .sqlServer) :
    ∀ q : Query, (∀ s ∈ q.levels, s.aggregate = none) →
      w.select q = w.leveled PageForm.topFirst q
  | ⟨slots, [], _, _⟩, rows => by
    rw [Writer.select, Writer.leveled]
    exact slots.components_eq_level server true (rows slots List.mem_cons_self)
  | ⟨slots, u :: us, _, _⟩, rows => by
    rw [levels, List.forall_mem_cons] at rows
    rw [Writer.select, Writer.leveled, slots.components_eq_level server false rows.1,
      members_eq_leveled server (u :: us) rows.2, rows.1, w.orderBy_eq, server]
    simp only [map_eq_pure_bind, bind_assoc, pure_bind]
    refine bind_congr fun first => bind_congr fun others =>
      Writer.orderList_congr fun orders ordered => congrArg pure ?_
    rw [slots.combined.form_whole, ordered]
    simp only [String.append_assoc]

theorem members_eq_leveled (server : w.dialect = .sqlServer) :
    ∀ us : List (Bool × Query), (∀ s ∈ memberLevels us, s.aggregate = none) →
      w.members us = w.leveledMembers PageForm.topFirst us
  | [], _ => rfl
  | (all, q) :: rest, rows => by
    rw [memberLevels, List.forall_mem_append] at rows
    rw [Writer.members, Writer.leveledMembers, select_eq_leveled server q rows.1,
      members_eq_leveled server rest rows.2]

end

end Query

/-! ## What SQL Server takes -/

/-- The level leaves out repeated rows and asks for the first rows behind `select`. -/
def Slots.Topped (s : Slots) : Prop :=
  s.distinct ≠ .none ∧ s.page.limit.isSome = true ∧ s.page.offset = none

instance (s : Slots) : Decidable s.Topped :=
  inferInstanceAs (Decidable (s.distinct ≠ .none ∧ s.page.limit.isSome = true ∧ s.page.offset = none))

/-- Two texts of one length, which are the same exactly if `P` holds. -/
structure Agreeing (P : Prop) (s t : String) : Prop where
  length_eq : s.length = t.length
  same_iff : s = t ↔ P

namespace Agreeing

variable {P Q : Prop} {s s' t t' : String}

theorem of_eq (same : s = t) (h : P) : Agreeing P s t :=
  ⟨congrArg String.length same, iff_of_true same h⟩

theorem congr (h : Agreeing P s t) (same : P ↔ Q) : Agreeing Q s t :=
  ⟨h.length_eq, h.same_iff.trans same⟩

theorem append (h : Agreeing P s t) (h' : Agreeing Q s' t') :
    Agreeing (P ∧ Q) (s ++ s') (t ++ t') where
  length_eq := by rw [String.length_append, String.length_append, h.length_eq, h'.length_eq]
  same_iff := by
    rw [← h.same_iff, ← h'.same_iff]
    constructor
    · intro same
      have chars : s.toList ++ s'.toList = t.toList ++ t'.toList := by
        rw [← String.toList_append, ← String.toList_append, same]
      obtain ⟨front, back⟩ := List.append_inj chars (by simp only [String.length_toList, h.length_eq])
      exact ⟨String.toList_inj.1 front, String.toList_inj.1 back⟩
    · rintro ⟨rfl, rfl⟩
      rfl

theorem around (h : Agreeing P s t) (before after : String) :
    Agreeing P (before ++ s ++ after) (before ++ t ++ after) := by
  have front : Agreeing True before before := of_eq rfl trivial
  have back : Agreeing True after after := of_eq rfl trivial
  exact ((front.append h).append back).congr (by rw [true_and, and_true])

theorem wrapUnion (h : Agreeing P s t) (d : Dialect) : Agreeing P (d.wrapUnion s) (d.wrapUnion t) := by
  cases d with
  | mysql | postgres => exact h.around "(" ")"
  | sqlite => exact h.around "select * from (" ")"
  | sqlServer =>
    have named := (h.around "select * from (" ") as ").around "" (Dialect.sqlServer.quote "temp_table")
    rw [String.empty_append, String.empty_append] at named
    exact named

end Agreeing

/-- The words between `select` and the columns are as SQL Server takes them, but where both come. -/
theorem Slots.front_agreeing (server : w.dialect = .sqlServer) {s : Slots} {distinct : String}
    (chosen : w.distinct s.distinct = .ok distinct) (orders : Option String) :
    Agreeing (¬ s.Topped) (PageForm.topFirst (s.page.form true orders).front distinct)
      (PageForm.distinctFirst (s.page.form true orders).front distinct) := by
  have same {front : String} (blank : front = "" ∨ distinct = "") :
      PageForm.topFirst front distinct = PageForm.distinctFirst front distinct := by
    rcases blank with rfl | rfl <;>
      simp only [PageForm.topFirst, PageForm.distinctFirst, String.empty_append, String.append_empty]
  cases kept : s.distinct with
  | none =>
    rw [kept] at chosen
    exact .of_eq (same (.inr (pure_eq_ok.1 chosen).symm)) fun topped => topped.1 kept
  | on columns =>
    rw [kept, Writer.distinct, server, if_neg (by decide)] at chosen
    cases chosen
  | all =>
    rw [kept] at chosen
    obtain rfl : "distinct " = distinct := pure_eq_ok.1 chosen
    unfold Slots.Topped Paging.form
    rw [kept]
    cases offset : s.page.offset with
    | some offset => cases s.page.limit <;> exact .of_eq (same (.inl rfl)) (by simp)
    | none =>
      cases limit : s.page.limit with
      | none => exact .of_eq (same (.inl rfl)) (by simp)
      | some n =>
        refine ⟨?_, ?_⟩
        · simp only [PageForm.topFirst, PageForm.distinctFirst, String.length_append, Nat.add_comm]
        · -- One text begins with `t`, the other with `d`.
          refine iff_of_false (fun equal => ?_) (by simp)
          have heads := congrArg (fun text => text.toList.head?) equal
          simp [PageForm.topFirst, PageForm.distinctFirst, PageForm.front] at heads

/-- A level is written as SQL Server takes it, but where `top` comes with `distinct`. -/
theorem Slots.level_agreeing (server : w.dialect = .sqlServer) {s : Slots} {text : String}
    (written : w.level PageForm.topFirst s = .ok text) :
    ∃ taken, w.level PageForm.distinctFirst s = .ok taken ∧ Agreeing (¬ s.Topped) text taken := by
  simp only [Writer.level, bind_eq_ok, pure_eq_ok] at written
  obtain ⟨distinct, chosen, columns, selected, body, read, orders, ordered, rfl⟩ := written
  have front := ((Slots.front_agreeing server chosen orders).around "select " columns).around ""
    (body ++ (s.page.form true orders).back)
  simp only [Writer.level, bind_eq_ok, pure_eq_ok]
  refine ⟨_, ⟨distinct, chosen, columns, selected, body, read, orders, ordered, rfl⟩, ?_⟩
  simpa only [String.empty_append, String.append_assoc] using front

namespace Query

mutual

/-- **Queries are taken as they are written**, but where a level has both words. -/
theorem leveled_agreeing (server : w.dialect = .sqlServer) :
    ∀ (q : Query) {text : String}, w.leveled PageForm.topFirst q = .ok text →
      ∃ taken, w.leveled PageForm.distinctFirst q = .ok taken ∧
        Agreeing (∀ s ∈ q.levels, ¬ s.Topped) text taken
  | ⟨slots, [], _, _⟩, _, written => by
    rw [Writer.leveled] at written
    obtain ⟨taken, level, agreeing⟩ := Slots.level_agreeing server written
    refine ⟨taken, ?_, agreeing.congr (by simp [levels, memberLevels])⟩
    rwa [Writer.leveled]
  | ⟨slots, u :: us, _, _⟩, _, written => by
    simp only [Writer.leveled, bind_eq_ok, pure_eq_ok] at written
    obtain ⟨first, written, others, united, orders, ordered, rfl⟩ := written
    obtain ⟨taken, level, agreeing⟩ := Slots.level_agreeing server written
    obtain ⟨members, leveled, agreeing'⟩ := members_agreeing server (u :: us) united
    simp only [Writer.leveled, bind_eq_ok, pure_eq_ok]
    refine ⟨_, ⟨taken, level, members, leveled, orders, ordered, rfl⟩, ?_⟩
    have whole := ((agreeing.wrapUnion w.dialect).append agreeing').around ""
      (slots.combined.form false orders).back
    rw [String.empty_append, String.empty_append] at whole
    exact whole.congr (by rw [levels, List.forall_mem_cons])

theorem members_agreeing (server : w.dialect = .sqlServer) :
    ∀ (us : List (Bool × Query)) {text : String},
      w.leveledMembers PageForm.topFirst us = .ok text →
      ∃ taken, w.leveledMembers PageForm.distinctFirst us = .ok taken ∧
        Agreeing (∀ s ∈ memberLevels us, ¬ s.Topped) text taken
  | [], _, written => ⟨_, written, .of_eq rfl (List.forall_mem_nil _)⟩
  | (all, q) :: rest, _, written => by
    simp only [Writer.leveledMembers, bind_eq_ok, pure_eq_ok] at written
    obtain ⟨first, written, others, united, rfl⟩ := written
    obtain ⟨taken, leveled, agreeing⟩ := leveled_agreeing server q written
    obtain ⟨members, leveled', agreeing'⟩ := members_agreeing server rest united
    simp only [Writer.leveledMembers, bind_eq_ok, pure_eq_ok]
    refine ⟨_, ⟨taken, leveled, members, leveled', rfl⟩, ?_⟩
    have word : Agreeing True (if all then " union all " else " union ")
      (if all then " union all " else " union ") := .of_eq rfl trivial
    have whole := (word.append (agreeing.wrapUnion w.dialect)).append agreeing'
    exact whole.congr (by rw [memberLevels, List.forall_mem_append, true_and])

end

end Query

end Written

/-! ## Statements that read a query -/

namespace Compiler

end Compiler

end SqlFragments
