import SqlFragments.Proofs.Indexing
import SqlFragments.Statement.Text

/-!
# One writer, two sources of texts

A writer takes the texts of expressions from a function in a monad, and does nothing else there but
refuse. So two writers whose functions answer alike write alike: a `Simulation` relates the work of
two monads, and relates what the writers of one dialect do as soon as it relates what their
functions do.

The functions need not answer alike everywhere. A writer asks for no other expressions than those
that a scan finds in the slots that it writes, so it is enough that they answer alike on these
(`Simulation.WritersOn`). And what a writer throws itself is a refusal, never the error of a table
(`Error.isRefusal`).
-/

namespace SqlFragments

/-! ## What a writer throws -/

/-- Whether the error says that a statement cannot be written whatever its expressions resolve to:
the dialect lacks a feature, or something is wrong with what the statement is made from. -/
def Error.isRefusal : Error → Bool
  | unsupported _ _ | invalid _ => true
  | driverUndefined _ _ | versionUndefined _ _ _ | driverUnset _ | placeholderMismatch _ _ _ => false

/-- Work that fails with refusals alone. -/
def Refusing {α : Type} (x : Except Error α) : Prop := ∀ e, x = .error e → e.isRefusal = true

theorem Refusing.ok {α : Type} (a : α) : Refusing (.ok a : Except Error α) := nofun

theorem Refusing.error {α : Type} {e : Error} (h : e.isRefusal = true) :
    Refusing (.error e : Except Error α) := by
  rintro _ ⟨⟩
  exact h

theorem Refusing.bind {α β : Type} {x : Except Error α} {f : α → Except Error β}
    (first : Refusing x) (next : ∀ a, Refusing (f a)) : Refusing (x >>= f) := by
  cases x with
  | ok a => exact next a
  | error e => exact .error (first e rfl)

namespace Dialect

theorem refusing_jsonKeys (keys : List String) : Refusing (jsonKeys keys) := by
  induction keys with
  | nil => exact .ok []
  | cons key keys ih =>
    have first : Refusing (jsonKey key) := by
      unfold jsonKey
      split
      · exact .ok _
      · exact .error rfl
    exact first.bind fun _ => ih.bind fun _ => .ok _

theorem refusing_jsonUpdate (d : Dialect) (column : String) (path : List String) (value : String) :
    Refusing (d.jsonUpdate column path value) := by
  have keys := refusing_jsonKeys path
  cases d with
  | mysql | postgres => exact keys.bind fun _ => .ok _
  | sqlite | sqlServer => exact .error rfl

theorem refusing_insertOrIgnore (d : Dialect) (insert : String) :
    Refusing (d.insertOrIgnore insert) := by
  cases d with
  | mysql | postgres | sqlite => exact .ok _
  | sqlServer => exact .error rfl

theorem refusing_upsert (d : Dialect) (insert : String) (uniqueBy update : List String)
    (assignments : List (String × String)) :
    Refusing (d.upsert insert uniqueBy update assignments) := by
  cases d with
  | mysql | postgres | sqlite => exact .ok _
  | sqlServer => exact .error rfl

end Dialect

/-! ## Simulations -/

/-- A relation between the work of two monads that can fail, which work put together from related
work keeps. -/
structure Simulation (m n : Type → Type) [Monad m] [MonadExceptOf Error m] [Monad n]
    [MonadExceptOf Error n] where
  rel : {α : Type} → m α → n α → Prop
  pure : ∀ {α : Type} (a : α), rel (Pure.pure a) (Pure.pure a)
  bind : ∀ {α β : Type} {x : m α} {y : n α} {f : α → m β} {g : α → n β},
    rel x y → (∀ a, rel (f a) (g a)) → rel (x >>= f) (y >>= g)
  refuse : ∀ {α : Type} (e : Error), e.isRefusal = true → rel (throw e : m α) (throw e : n α)

namespace Simulation

variable {m n : Type → Type} [Monad m] [MonadExceptOf Error m] [Monad n] [MonadExceptOf Error n]
  (S : Simulation m n)

theorem lift {α : Type} {x : Except Error α} (h : Refusing x) :
    S.rel (Writer.lift x : m α) (Writer.lift x : n α) := by
  cases x with
  | ok a => exact S.pure a
  | error e => exact S.refuse e (h e rfl)

theorem each {α : Type} {f : α → m String} {g : α → n String} {as : List α}
    (h : ∀ a ∈ as, S.rel (f a) (g a)) : S.rel (Writer.each f as) (Writer.each g as) := by
  induction as with
  | nil => exact S.pure []
  | cons a as ih =>
    rw [List.forall_mem_cons] at h
    rw [Writer.each, Writer.each]
    exact S.bind h.1 fun first => S.bind (ih h.2) fun others => S.pure (first :: others)

theorem clause {x : m String} {y : n String} (present : Bool) (keyword : String) (h : S.rel x y) :
    S.rel (Writer.clause present keyword x) (Writer.clause present keyword y) := by
  rw [Writer.clause, Writer.clause]
  split
  · exact S.bind h fun text => S.pure (keyword ++ text)
  · exact S.pure ""

end Simulation

/-! ## Properties of the expressions of a query -/

/-- A property of the expressions in the slots, slot by slot. -/
structure Slots.Holding (s : Slots) (P : Expression → Prop) : Prop where
  aggregate : ∀ a, s.aggregate = some a → ∀ x ∈ a.columns.filterMap Ident.expression?, P x
  columns : ∀ x ∈ s.columns.filterMap Ident.expression?, P x
  table : ∀ t, s.table = some t → ∀ x ∈ t.expression?, P x
  joins : ∀ x ∈ s.joins.flatMap Join.expressions, P x
  wheres : ∀ x ∈ Predicate.expressionsOfAll s.wheres, P x
  groups : ∀ x ∈ s.groups.filterMap Ident.expression?, P x
  havings : ∀ x ∈ Predicate.expressionsOfAll s.havings, P x
  page : ∀ x ∈ s.page.expressions, P x

theorem Slots.holding {s : Slots} {P : Expression → Prop} (h : ∀ x ∈ s.expressions, P x) :
    s.Holding P := by
  simp only [expressions, List.forall_mem_append] at h
  obtain ⟨⟨⟨⟨⟨⟨⟨aggregate, columns⟩, table⟩, joins⟩, wheres⟩, groups⟩, havings⟩, page⟩ := h
  refine ⟨fun a given => ?_, columns, fun t given => ?_, joins, wheres, groups, havings, page⟩
  · simpa only [given] using aggregate
  · rw [given, List.forall_mem_filterMap] at table
    exact table t List.mem_cons_self

/-- What holds of the expressions of a query holds of those in its own slots. -/
theorem Query.holding {q : Query} {P : Expression → Prop} (h : ∀ x ∈ q.scan, P x) :
    q.slots.Holding P := by
  simp only [scan_eq, List.forall_mem_append] at h
  exact Slots.holding h.1.1

/-! ## Writers -/

/-- Two writers of one dialect whose sources of texts answer alike. -/
structure Simulation.Writers {m n : Type → Type} [Monad m] [MonadExceptOf Error m] [Monad n]
    [MonadExceptOf Error n] (S : Simulation m n) (w : Writer m) (v : Writer n) : Prop where
  dialect : w.dialect = v.dialect
  expression : ∀ x, S.rel (w.expression x) (v.expression x)

/-- Two writers of one dialect whose sources of texts answer alike on some expressions. -/
structure Simulation.WritersOn {m n : Type → Type} [Monad m] [MonadExceptOf Error m] [Monad n]
    [MonadExceptOf Error n] (S : Simulation m n) (P : Expression → Prop) (w : Writer m)
    (v : Writer n) : Prop where
  dialect : w.dialect = v.dialect
  expression : ∀ x, P x → S.rel (w.expression x) (v.expression x)

namespace Simulation.WritersOn

variable {m n : Type → Type} [Monad m] [MonadExceptOf Error m] [Monad n] [MonadExceptOf Error n]
  {S : Simulation m n} {P : Expression → Prop} {w : Writer m} {v : Writer n}

theorem ident (h : S.WritersOn P w v) {i : Ident} (within : ∀ x ∈ i.expression?, P x) :
    S.rel (w.ident i) (v.ident i) := by
  cases i with
  | name name =>
    simp only [Writer.ident, h.dialect]
    exact S.pure _
  | raw fragment => exact h.expression fragment.expression (within _ rfl)

theorem columns (h : S.WritersOn P w v) {cs : List Ident}
    (within : ∀ x ∈ cs.filterMap Ident.expression?, P x) : S.rel (w.columns cs) (v.columns cs) := by
  rw [List.forall_mem_filterMap] at within
  exact S.bind (S.each fun c member => h.ident (within c member)) fun _ => S.pure _

theorem operand (h : S.WritersOn P w v) {o : Operand} (within : ∀ x ∈ o.expression?, P x) :
    S.rel (w.operand o) (v.operand o) := by
  cases o with
  | bound b => exact S.pure "?"
  | inline x => exact h.expression x (within x rfl)

mutual

theorem predicate (h : S.WritersOn P w v) : ∀ p : Predicate, (∀ x ∈ p.expressions, P x) →
    S.rel (w.predicate p) (v.predicate p)
  | .compare _ column operator value, within => by
    simp only [Predicate.expressions, List.forall_mem_append, Option.mem_toList] at within
    simp only [Writer.predicate]
    exact S.bind (h.ident within.1) fun _ => S.bind (h.operand within.2) fun _ => S.pure _
  | .raw _ fragment, within => by
    simp only [Predicate.expressions, List.forall_mem_singleton] at within
    simp only [Writer.predicate]
    exact h.expression fragment.expression within
  | .among _ column negated values, within => by
    simp only [Predicate.expressions, List.forall_mem_append, Option.mem_toList,
      List.forall_mem_filterMap] at within
    simp only [Writer.predicate]
    split
    · exact S.pure _
    · exact S.bind (S.each fun v member => h.operand (within.2 v member)) fun _ =>
        S.bind (h.ident within.1) fun _ => S.pure _
  | .null _ column negated, within => by
    simp only [Predicate.expressions, Option.mem_toList] at within
    simp only [Writer.predicate]
    exact S.bind (h.ident within) fun _ => S.pure _
  | .between _ column negated low high, within => by
    simp only [Predicate.expressions, List.forall_mem_append, Option.mem_toList] at within
    simp only [Writer.predicate]
    exact S.bind (h.ident within.1.1) fun _ => S.bind (h.operand within.1.2) fun _ =>
      S.bind (h.operand within.2) fun _ => S.pure _
  | .columns _ first operator second, within => by
    simp only [Predicate.expressions, List.forall_mem_append, Option.mem_toList] at within
    simp only [Writer.predicate]
    exact S.bind (h.ident within.1) fun _ => S.bind (h.ident within.2) fun _ => S.pure _
  | .nested _ members, within => by
    simp only [Predicate.expressions] at within
    simp only [Writer.predicate]
    exact S.bind (predicates h members within) fun _ => S.pure _
  | .dated _ part column operator value, within => by
    simp only [Predicate.expressions, List.forall_mem_append, Option.mem_toList] at within
    simp only [Writer.predicate, h.dialect]
    exact S.bind (h.ident within.1) fun _ => S.bind (h.operand within.2) fun _ => S.pure _

theorem predicates (h : S.WritersOn P w v) : ∀ ps : List Predicate,
    (∀ x ∈ Predicate.expressionsOfAll ps, P x) → S.rel (w.predicates ps) (v.predicates ps)
  | [], _ => by
    simp only [Writer.predicates]
    exact S.pure ""
  | p :: rest, within => by
    simp only [Predicate.expressionsOfAll, List.forall_mem_append] at within
    simp only [Writer.predicates]
    exact S.bind (predicate h p within.1) fun _ =>
      S.bind (followers h rest within.2) fun _ => S.pure _

theorem followers (h : S.WritersOn P w v) : ∀ ps : List Predicate,
    (∀ x ∈ Predicate.expressionsOfAll ps, P x) → S.rel (w.followers ps) (v.followers ps)
  | [], _ => by
    simp only [Writer.followers]
    exact S.pure ""
  | p :: rest, within => by
    simp only [Predicate.expressionsOfAll, List.forall_mem_append] at within
    simp only [Writer.followers]
    exact S.bind (predicate h p within.1) fun _ =>
      S.bind (followers h rest within.2) fun _ => S.pure _

end

theorem join (h : S.WritersOn P w v) {j : Join} (within : ∀ x ∈ j.expressions, P x) :
    S.rel (w.join j) (v.join j) := by
  simp only [Join.expressions, List.forall_mem_append, Option.mem_toList] at within
  exact S.bind (h.ident within.1) fun _ =>
    S.bind (S.clause _ _ (h.predicates j.clauses within.2)) fun _ => S.pure _

theorem joins (h : S.WritersOn P w v) {js : List Join}
    (within : ∀ x ∈ js.flatMap Join.expressions, P x) : S.rel (w.joins js) (v.joins js) := by
  induction js with
  | nil => exact S.pure ""
  | cons j js ih =>
    simp only [List.flatMap_cons, List.forall_mem_append] at within
    simp only [Writer.joins]
    exact S.bind (h.join within.1) fun _ => S.bind (ih within.2) fun _ => S.pure _

theorem order (h : S.WritersOn P w v) {o : Order} (within : ∀ x ∈ o.expression?, P x) :
    S.rel (w.order o) (v.order o) := by
  cases o with
  | column c descending => exact S.bind (h.ident within) fun _ => S.pure _
  | raw fragment => exact h.expression fragment.expression (within _ rfl)

theorem orderBy (h : S.WritersOn P w v) {p : Paging} (within : ∀ x ∈ p.expressions, P x) :
    S.rel (w.orderBy p.orders) (v.orderBy p.orders) := by
  rw [Paging.expressions, List.forall_mem_filterMap] at within
  exact S.clause _ _
    (S.bind (S.each fun o member => h.order (within o member)) fun _ => S.pure _)

theorem whereClause (h : S.WritersOn P w v) {wheres : List Predicate}
    (within : ∀ x ∈ Predicate.expressionsOfAll wheres, P x) :
    S.rel (w.whereClause wheres) (v.whereClause wheres) :=
  S.clause _ _ (h.predicates wheres within)

theorem columnsOrAll (h : S.WritersOn P w v) {cs : List Ident}
    (within : ∀ x ∈ cs.filterMap Ident.expression?, P x) :
    S.rel (w.columnsOrAll cs) (v.columnsOrAll cs) := by
  rw [Writer.columnsOrAll, Writer.columnsOrAll]
  split
  · exact S.pure "*"
  · exact h.columns within

theorem aggregateCall (h : S.WritersOn P w v) {a : Aggregate} (distinct : Distinct)
    (within : ∀ x ∈ a.columns.filterMap Ident.expression?, P x) :
    S.rel (w.aggregateCall a distinct) (v.aggregateCall a distinct) := by
  simp only [Writer.aggregateCall, h.dialect]
  exact S.bind (h.columnsOrAll within) fun _ => S.pure _

theorem distinct (h : S.WritersOn P w v) (x : Distinct) : S.rel (w.distinct x) (v.distinct x) := by
  cases x with
  | none => exact S.pure ""
  | all => exact S.pure "distinct "
  | on columns =>
    simp only [Writer.distinct, h.dialect]
    split
    · exact S.pure _
    · exact S.refuse _ rfl

theorem selection (h : S.WritersOn P w v) {s : Slots} (within : s.Holding P) :
    S.rel (w.selection s) (v.selection s) := by
  simp only [Writer.selection, h.dialect]
  exact S.bind (h.distinct s.distinct) fun _ =>
    S.bind (h.columnsOrAll within.columns) fun _ => S.pure _

theorem source (h : S.WritersOn P w v) {s : Slots} (within : s.Holding P) :
    S.rel (w.source s) (v.source s) := by
  simp only [Writer.source, h.dialect]
  split
  · exact S.pure ""
  · next t given => exact S.bind (h.ident (within.table t given)) fun _ => S.pure _

theorem selected (h : S.WritersOn P w v) {s : Slots} (within : s.Holding P) (aggregated : Bool) :
    S.rel (w.selected s aggregated) (v.selected s aggregated) := by
  simp only [Writer.selected, h.dialect]
  split
  · next given =>
    exact S.bind (h.aggregateCall s.distinct (within.aggregate _ given)) fun _ => S.pure _
  · exact S.bind (h.selection within) fun _ => S.pure _

theorem components (h : S.WritersOn P w v) {s : Slots} (within : s.Holding P) (aggregated : Bool) :
    S.rel (w.components s aggregated) (v.components s aggregated) := by
  simp only [Writer.components, h.dialect]
  exact S.bind (h.selected within aggregated) fun _ => S.bind (h.source within) fun _ =>
    S.bind (h.joins within.joins) fun _ => S.bind (h.whereClause within.wheres) fun _ =>
    S.bind (S.clause _ _ (h.columns within.groups)) fun _ =>
    S.bind (S.clause _ _ (h.predicates s.havings within.havings)) fun _ =>
    S.bind (h.orderBy within.page) fun _ => S.pure _

mutual

theorem select (h : S.WritersOn P w v) : ∀ q : Query, (∀ x ∈ q.scan, P x) →
    S.rel (w.select q) (v.select q)
  | ⟨slots, [], _, _⟩, within => by
    simp only [Query.scan, List.forall_mem_append] at within
    simp only [Writer.select]
    exact h.components (Slots.holding within.1.1) true
  | ⟨slots, u :: us, _, _⟩, within => by
    simp only [Query.scan, List.forall_mem_append] at within
    obtain ⟨⟨slotted, united⟩, combined⟩ := within
    simp only [Writer.select, h.dialect]
    have held := Slots.holding slotted
    refine S.bind (h.components held false) fun _ => S.bind (members h (u :: us) united) fun _ =>
      S.bind (h.orderBy combined) fun _ => ?_
    split
    · next given =>
      exact S.bind (h.aggregateCall slots.distinct (held.aggregate _ given)) fun _ => S.pure _
    · exact S.pure _

theorem members (h : S.WritersOn P w v) : ∀ us : List (Bool × Query),
    (∀ x ∈ Query.scanMembers us, P x) → S.rel (w.members us) (v.members us)
  | [], _ => by
    simp only [Writer.members]
    exact S.pure ""
  | (all, q) :: rest, within => by
    simp only [Query.scanMembers, List.forall_mem_append] at within
    simp only [Writer.members, h.dialect]
    exact S.bind (select h q within.1) fun _ => S.bind (members h rest within.2) fun _ => S.pure _

end

theorem hasRows (h : S.WritersOn P w v) {q : Query} (within : ∀ x ∈ q.scan, P x) :
    S.rel (w.hasRows q) (v.hasRows q) := by
  simp only [Writer.hasRows, h.dialect]
  exact S.bind (h.select q within) fun _ => S.pure _

/-! Statements that change rows. -/

theorem table (h : S.WritersOn P w v) {q : Query} (within : ∀ x ∈ q.scan, P x) :
    S.rel (w.table q) (v.table q) := by
  rw [Writer.table, Writer.table]
  split
  · next t given => exact h.ident ((Query.holding within).table t given)
  · exact S.refuse _ rfl

theorem row (h : S.WritersOn P w v) {r : Record} (within : ∀ x ∈ r.expressions, P x) :
    S.rel (w.row r) (v.row r) := by
  rw [Record.expressions, List.forall_mem_filterMap] at within
  exact S.bind (S.each fun entry member => h.operand (within entry member)) fun _ => S.pure _

theorem insert (h : S.WritersOn P w v) {q : Query} (target : ∀ x ∈ q.scan, P x)
    {rows : List Record} (within : ∀ x ∈ rows.flatMap Record.expressions, P x) :
    S.rel (w.insert q rows) (v.insert q rows) := by
  rw [List.forall_mem_flatMap] at within
  simp only [Writer.insert, h.dialect]
  refine S.bind (h.table target) fun _ => ?_
  split
  · exact S.pure _
  · split
    · exact S.pure _
    · exact S.bind (S.each fun r member => h.row (within r member)) fun _ => S.pure _

theorem insertOrIgnore (h : S.WritersOn P w v) {q : Query} (target : ∀ x ∈ q.scan, P x)
    {rows : List Record} (within : ∀ x ∈ rows.flatMap Record.expressions, P x) :
    S.rel (w.insertOrIgnore q rows) (v.insertOrIgnore q rows) := by
  simp only [Writer.insertOrIgnore, h.dialect]
  exact S.bind (h.insert target within) fun _ => S.lift (Dialect.refusing_insertOrIgnore _ _)

theorem insertGetId (h : S.WritersOn P w v) {q : Query} (target : ∀ x ∈ q.scan, P x) {r : Record}
    (within : ∀ x ∈ r.expressions, P x) (sequence : String) :
    S.rel (w.insertGetId q r sequence) (v.insertGetId q r sequence) := by
  have rows : ∀ x ∈ [r].flatMap Record.expressions, P x := by
    rwa [List.flatMap_singleton]
  simp only [Writer.insertGetId, h.dialect]
  exact S.bind (h.insert target rows) fun _ => S.pure _

theorem insertUsing (h : S.WritersOn P w v) {q : Query} (target : ∀ x ∈ q.scan, P x)
    (columns : List String) {source : Query} (within : ∀ x ∈ source.scan, P x) :
    S.rel (w.insertUsing q columns source) (v.insertUsing q columns source) := by
  simp only [Writer.insertUsing, h.dialect]
  exact S.bind (h.table target) fun _ => S.bind (h.select source within) fun _ => S.pure _

theorem assignments (h : S.WritersOn P w v) {entries : List (String × Operand)}
    (within : ∀ x ∈ entries.filterMap fun entry => entry.2.expression?, P x) :
    S.rel (w.assignments entries) (v.assignments entries) := by
  induction entries with
  | nil => exact S.pure []
  | cons entry rest ih =>
    rw [List.forall_mem_filterMap, List.forall_mem_cons, ← List.forall_mem_filterMap] at within
    simp only [Writer.assignments, h.dialect]
    exact S.bind (h.operand within.1) fun _ => S.bind (ih within.2) fun _ => S.pure _

theorem upsert (h : S.WritersOn P w v) {q : Query} (target : ∀ x ∈ q.scan, P x)
    {rows : List Record} (within : ∀ x ∈ rows.flatMap Record.expressions, P x)
    (uniqueBy update : List String) {given : Record} (assigned : ∀ x ∈ given.expressions, P x) :
    S.rel (w.upsert q rows uniqueBy update given) (v.upsert q rows uniqueBy update given) := by
  simp only [Writer.upsert, h.dialect]
  exact S.bind (h.insert target within) fun _ => S.bind (h.assignments assigned) fun _ =>
    S.lift (Dialect.refusing_upsert _ _ _ _ _)

theorem checkMutation (h : S.WritersOn P w v) (s : Slots) (mutation : Mutation) :
    S.rel (w.checkMutation s mutation) (v.checkMutation s mutation) := by
  simp only [Writer.checkMutation, h.dialect]
  split
  · exact S.pure ()
  · split
    · exact S.refuse _ rfl
    · split
      · exact S.refuse _ rfl
      · exact S.pure ()

theorem assignment (h : S.WritersOn P w v) (column : String) {value : Operand}
    (within : ∀ x ∈ value.expression?, P x) :
    S.rel (w.assignment column value) (v.assignment column value) := by
  simp only [Writer.assignment, h.dialect]
  refine S.bind (h.operand within) fun _ => ?_
  split
  · exact S.lift (Dialect.refusing_jsonUpdate _ _ _ _)
  · exact S.pure _

theorem mutationTail (h : S.WritersOn P w v) {s : Slots} (within : s.Holding P) :
    S.rel (w.mutationTail s) (v.mutationTail s) :=
  S.bind (h.whereClause within.wheres) fun _ => S.bind (h.orderBy within.page) fun _ => S.pure _

theorem update (h : S.WritersOn P w v) {q : Query} (target : ∀ x ∈ q.scan, P x) {values : Record}
    (within : ∀ x ∈ values.expressions, P x) : S.rel (w.update q values) (v.update q values) := by
  have held := Query.holding target
  rw [Record.expressions, List.forall_mem_filterMap] at within
  simp only [Writer.update]
  refine S.bind (h.checkMutation q.slots .update) fun _ => ?_
  split
  · exact S.refuse _ rfl
  · exact S.bind (h.table target) fun _ =>
      S.bind (S.each fun entry member => h.assignment entry.1 (within entry member)) fun _ =>
      S.bind (h.joins held.joins) fun _ => S.bind (h.mutationTail held) fun _ => S.pure _

theorem delete (h : S.WritersOn P w v) {q : Query} (within : ∀ x ∈ q.scan, P x) :
    S.rel (w.delete q) (v.delete q) := by
  have target : w.target q = v.target q := by
    funext table
    simp only [Writer.target, h.dialect]
  have held := Query.holding within
  simp only [Writer.delete, target]
  exact S.bind (h.checkMutation q.slots .delete) fun _ => S.bind (h.table within) fun _ =>
    S.bind (h.joins held.joins) fun _ => S.bind (h.mutationTail held) fun _ => S.pure _

end Simulation.WritersOn

/-! ## Sources that answer alike everywhere -/

namespace Simulation.Writers

variable {m n : Type → Type} [Monad m] [MonadExceptOf Error m] [Monad n] [MonadExceptOf Error n]
  {S : Simulation m n} {w : Writer m} {v : Writer n}

theorem everywhere (h : S.Writers w v) : S.WritersOn (fun _ => True) w v :=
  ⟨h.dialect, fun x _ => h.expression x⟩

theorem predicate (h : S.Writers w v) (p : Predicate) : S.rel (w.predicate p) (v.predicate p) :=
  h.everywhere.predicate p fun _ _ => trivial

theorem select (h : S.Writers w v) (q : Query) : S.rel (w.select q) (v.select q) :=
  h.everywhere.select q fun _ _ => trivial

theorem hasRows (h : S.Writers w v) (q : Query) : S.rel (w.hasRows q) (v.hasRows q) :=
  h.everywhere.hasRows fun _ _ => trivial

end Simulation.Writers

end SqlFragments
