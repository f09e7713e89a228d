import SqlFragments.Proofs.Calls
import SqlFragments.Proofs.Configuration
import SqlFragments.Proofs.Sessions

/-!
# Sessions in which queries are built

A `Session.Step` makes, copies, builds or uses a query of a session; queries that are taken in are
those of the session, with whatever they remember by then. Every query of a session that such steps
lead to is one that calls made (`Session.made_after`), for a compilation leaves its query as it was
or asks it for its expressions. So what queries tell of themselves is never out of date, however
building, copying, asking and compiling are interleaved (`Session.expressions_never_stale`).

An aggregate is compiled as the rows of a copy are that computes it (`Compiler.compile_aggregate`),
so it resolves what the copy tells, the columns of the aggregate before all others.
-/

namespace SqlFragments

/-- The expressions of an aggregate's columns come before those of a query that yields its rows. -/
theorem Query.scan_withAggregate {q : Query} (rows : q.slots.aggregate = none) (a : Aggregate) :
    (q.withAggregate a).scan = a.columns.filterMap Ident.expression? ++ q.scan := by
  rw [scan_eq, scan_eq]
  simp [withAggregate, edit, Slots.expressions, rows]

namespace Compiler

variable (c : Compiler) (q : Query) (w : Workspace)

/-- An aggregate is the rows of a copy of the query, which is left as it was. -/
theorem compile_aggregate (function : String) (columns : List String) :
    c.compile q (.aggregate function columns) w =
      (c.compile (q.withAggregate ⟨function, columns.map Ident.name⟩) .select w).map
        ({ · with query := q }) id := by
  let copy := q.withAggregate ⟨function, columns.map Ident.name⟩
  have aggregate : Form.ofRequest q w.next (.aggregate function columns) =
    .ok (some (.select copy)) := rfl
  have rows : Form.ofRequest copy w.next .select = .ok (some (.select copy)) := rfl
  rw [compile_of_form aggregate, compile_of_form rows]
  rfl

variable {c q w}

/-- The rows of a query fail for a table exactly when an expression that the query tells has no text,
with the error of the first of them. -/
theorem failing_select_iff (truthful : q.Truthful) (faultless : q.fault = none) {e : Error}
    (grammar : e.isGrammar = true) :
    (c.compile q .select w).1.answer = .error e ↔
      FirstFailing (w.tables.lookup c.context) e q.expressions := by
  have rows : Form.ofRequest q w.next .select = .ok (some (.select q)) := rfl
  have told : (Form.select q).expressions c.dialect = q.expressions := by
    rw [Form.expressions, Form.queries, Form.target, Form.others, Form.extra, List.append_nil,
      List.flatMap_singleton]
  rw [answer_of_form rows, map_eq_error, ← configured_eq_error_iff, ← told]
  refine Form.answer_eq_error_iff (f := .select q) ?_ ?_ grammar
  · rw [Form.queries, Form.target, Form.others, List.findSome?_singleton, faultless]
  · exact List.forall_mem_singleton.2 truthful

/-- An aggregate fails for a table as the rows of its copy do. -/
theorem failing_aggregate_iff (truthful : q.Truthful) (faultless : q.fault = none) {e : Error}
    (grammar : e.isGrammar = true) (function : String) (columns : List String) :
    (c.compile q (.aggregate function columns) w).1.answer = .error e ↔
      FirstFailing (w.tables.lookup c.context) e
        (q.withAggregate ⟨function, columns.map Ident.name⟩).expressions := by
  have failing := failing_select_iff (c := c) (w := w)
    (truthful.withAggregate ⟨function, columns.map Ident.name⟩) faultless grammar
  rwa [compile_aggregate, Prod.map_fst]

end Compiler

namespace Session

/-- What happens to the queries of a session: there is a new one, a copy of one, a call of the
builder for one, which names what it takes in by its place, or a call of the session. -/
inductive Step where
  | create
  | clone (place : Nat)
  | build (place : Nat) (call : Query.Call Nat)
  | use (call : Call)

/-- The session after a step. -/
def step (s : Session) : Step → Session
  | .create => { s with queries := s.queries ++ [{}] }
  | .clone place => { s with queries := s.queries ++ [s.query place] }
  | .build place call =>
    { s with queries := s.queries.set place ((s.query place).call (call.map s.query)) }
  | .use call => (s.call call).2

/-- The session after steps, where in the beginning there are no queries. -/
def after (w : Workspace) (steps : List Step) : Session :=
  steps.foldl step ⟨[], w⟩

/-- All queries of the session are made by calls. -/
def Made (s : Session) : Prop := ∀ q ∈ s.queries, q.Made

namespace Made

variable {s : Session}

theorem query (h : s.Made) (place : Nat) : (s.query place).Made := by
  rw [Session.query, List.getD_eq_getElem?_getD]
  cases held : s.queries[place]? with
  | none => exact .empty
  | some q => exact h q (List.mem_of_getElem? held)

theorem append (h : s.Made) {q : Query} (made : q.Made) :
    Made { s with queries := s.queries ++ [q] } := by
  intro p member
  rcases List.mem_append.1 member with earlier | last
  · exact h p earlier
  · rwa [List.mem_singleton.1 last]

theorem set (h : s.Made) (place : Nat) {q : Query} (made : q.Made) (w : Workspace) :
    Made ⟨s.queries.set place q, w⟩ := by
  intro p member
  rcases List.mem_or_eq_of_mem_set member with other | here
  · exact h p other
  · rwa [here]

/-- A compilation asks its query for its expressions, if it does anything to it. -/
theorem compile (h : s.Made) (c : Compiler) (place : Nat) (r : Request) :
    (s.compile c place r).2.Made := by
  have made : (c.compile (s.query place) r s.workspace).1.query.Made := by
    rcases c.compile_query (s.query place) r s.workspace with left | left
    · rw [left]
      exact h.query place
    · rw [left]
      exact .call .index (h.query place) nofun
  exact h.set place made _

/-- **One step** leaves queries that are made by calls. -/
theorem step (h : s.Made) (step : Step) : (s.step step).Made := by
  cases step with
  | create => exact h.append .empty
  | clone place => exact h.append (h.query place)
  | build place call =>
    refine h.set place (.call _ (h.query place) fun p taken => ?_) _
    rw [Query.Call.taken_map] at taken
    obtain ⟨source, -, rfl⟩ := List.mem_map.1 taken
    exact h.query source
  | use call =>
    cases call with
    | compile c place r => exact h.compile c place r
    | insertFrom c place columns source =>
      exact h.compile c place (.insertUsing columns (s.query source))
    | index place => exact h.set place (.call .index (h.query place) nofun) _
    | refresh place => exact h.set place (.call .refresh (h.query place) nofun) _

end Made

/-- **Steps in a row.** -/
theorem made_after (w : Workspace) (steps : List Step) : (after w steps).Made := by
  suffices kept : ∀ s : Session, s.Made → (steps.foldl step s).Made from
    kept ⟨[], w⟩ (List.forall_mem_nil _)
  induction steps with
  | nil => exact fun _ made => made
  | cons first steps ih => exact fun s made => ih _ (made.step first)

/-- An aggregate is taken of a copy. -/
theorem queries_of_aggregate (s : Session) (c : Compiler) (place : Nat) (function : String)
    (columns : List String) :
    (s.compile c place (.aggregate function columns)).2.queries = s.queries := by
  have left : (s.compile c place (.aggregate function columns)).2.queries =
      s.queries.set place (s.query place) := rfl
  rw [left, query, List.getD_eq_getElem?_getD]
  by_cases inside : place < s.queries.length
  · rw [List.getElem?_eq_getElem inside, Option.getD_some, List.set_getElem_self]
  · exact List.set_eq_of_length_le (Nat.le_of_not_lt inside)

/-- **Indexes are never out of date.** However queries are made, copied, built of one another, asked
for their expressions and compiled: each query tells the expressions that a scan of its slots finds,
as it does with its own index dropped or computed anew, and no query that it is united with, at any
depth, remembers anything else. With an aggregate a query tells its columns first. An aggregate is
compiled as the rows of such a copy are: it comes to what they come to, in the same phases, and leaves
the workspace as they do and all queries as they were. So where it fails for a table, it fails with
the error of the first expression without a text, the columns before all others. -/
theorem expressions_never_stale (w : Workspace) (steps : List Step) (place : Nat) :
    let s := after w steps
    let q := s.query place
    q.Truthful ∧ q.expressions = q.scan ∧
      { q with index := none }.expressions = q.scan ∧ q.refreshed.expressions = q.scan ∧
      (∀ a : Aggregate,
        (q.withAggregate a).expressions = a.columns.filterMap Ident.expression? ++ q.scan) ∧
      ∀ (c : Compiler) (function : String) (columns : List String),
        let a : Aggregate := ⟨function, columns.map Ident.name⟩
        c.compile q (.aggregate function columns) s.workspace =
            (c.compile (q.withAggregate a) .select s.workspace).map ({ · with query := q }) id ∧
          (s.compile c place (.aggregate function columns)).2.queries = s.queries ∧
          (q.fault = none → ∀ e, e.isGrammar = true →
            ((c.compile q (.aggregate function columns) s.workspace).1.answer = .error e ↔
              FirstFailing (s.workspace.tables.lookup c.context) e
                (a.columns.filterMap Ident.expression? ++ q.scan))) := by
  intro s q
  have made : q.Made := (made_after w steps).query place
  have truthful : q.Truthful := made.built.truthful
  have dropped : Query.Truthful { q with index := none } := truthful.of_forgotten rfl rfl
  have columnsFirst (a : Aggregate) :
      (q.withAggregate a).expressions = a.columns.filterMap Ident.expression? ++ q.scan := by
    rw [(truthful.withAggregate a).expressions, Query.scan_withAggregate made.aggregate]
  refine ⟨truthful, truthful.expressions, ?_, ?_, columnsFirst, fun c function columns => ?_⟩
  · rw [dropped.expressions, Query.scan_eq, Query.scan_eq]
  · rw [truthful.refreshed.expressions, Query.refreshed, Query.scan_indexed, Query.scan_eq,
      Query.scan_eq]
  · intro a
    refine ⟨c.compile_aggregate q s.workspace function columns,
      s.queries_of_aggregate c place function columns, fun faultless e grammar => ?_⟩
    rw [← columnsFirst a]
    exact Compiler.failing_aggregate_iff truthful faultless grammar function columns

end Session

end SqlFragments
