import SqlFragments.Proofs.Keeping
import SqlFragments.Proofs.ValueIndependence

/-!
# Compilations in a row

A `Session` is a list of queries with the workspace that their expressions share. Every call may
leave something behind: tables remember what they resolved, queries remember their expressions,
cells of deferred bindings move on. `Session.no_leakage` says that none of it is ever seen: in any
row of calls each comes to what it comes to alone, in the session as it was in the beginning and with
nothing remembered, and no table loses or gains a text, a driver or a version.

The invariant is `Session.Follows`: the queries are those of the beginning but for what they
remember, which is what a scan finds, and the tables are intact.
-/

namespace SqlFragments

/-- The request with nothing remembered by the query that it reads. -/
def Request.bare : Request → Request
  | insertUsing columns source => insertUsing columns source.bare
  | r => r

/-- Queries, and the workspace that their expressions share. -/
structure Session where
  queries : List Query
  workspace : Workspace

namespace Session

/-- What is asked of a session: a statement for the query at a place, also one that reads the query
at another, or that a query finds its expressions. -/
inductive Call where
  | compile (c : Compiler) (place : Nat) (r : Request)
  | insertFrom (c : Compiler) (place : Nat) (columns : List String) (source : Nat)
  | index (place : Nat)
  | refresh (place : Nat)

/-- The queries that a call brings with it. -/
def Call.sources : Call → List Query
  | compile _ _ r => r.sources
  | insertFrom _ _ _ _ | index _ | refresh _ => []

/-- The call with nothing remembered by what it brings with it. -/
def Call.bare : Call → Call
  | compile c place r => compile c place r.bare
  | call => call

/-- The texts or the error of a compilation, and its phases. -/
abbrev Answer := Except Error (List String) × List Phase

/-- The query at a place; where there is none, an empty one. -/
def query (s : Session) (place : Nat) : Query := s.queries.getD place {}

/-- Compiles the query at a place. -/
def compile (s : Session) (c : Compiler) (place : Nat) (r : Request) : Answer × Session :=
  let (run, w) := c.compile (s.query place) r s.workspace
  (run.outcome Compiled.texts, ⟨s.queries.set place run.query, w⟩)

/-- The answer to a call, if it asks for a statement, and the session after it. -/
def call (s : Session) : Call → Option Answer × Session
  | .compile c place r => (s.compile c place r).map some id
  | .insertFrom c place columns source =>
    (s.compile c place (.insertUsing columns (s.query source))).map some id
  | .index place =>
    (none, { s with queries := s.queries.set place (s.query place).indexed })
  | .refresh place =>
    (none, { s with queries := s.queries.set place (s.query place).refreshed })

/-- The answers to calls, made one after another, and the session after them. -/
def run (s : Session) : List Call → List (Option Answer) × Session
  | [] => ([], s)
  | call :: calls => ((s.call call).1 :: ((s.call call).2.run calls).1, ((s.call call).2.run calls).2)

/-- The session with nothing remembered. -/
def bare (s : Session) : Session where
  queries := s.queries.map Query.bare
  workspace := { s.workspace with tables := s.workspace.tables.cleared }

theorem query_bare (s : Session) (place : Nat) : s.bare.query place = (s.query place).bare := by
  rw [query, query, bare, List.getD_eq_getElem?_getD, List.getD_eq_getElem?_getD, List.getElem?_map]
  cases s.queries[place]? <;> rfl

theorem truthful_query_bare (s : Session) (place : Nat) : (s.bare.query place).Truthful := by
  rw [query_bare]
  exact Query.truthful_bare _

/-- The session is that of the beginning but for what queries and tables remember, and none of that
is wrong. -/
structure Follows (start s : Session) : Prop where
  truthful : ∀ place, (s.query place).Truthful
  bare : ∀ place, (s.query place).bare = (start.query place).bare
  tables : Tables.Intact start.workspace.tables s.workspace.tables

namespace Follows

variable {start s : Session}

theorem outline (h : start.Follows s) (place : Nat) :
    (s.query place).outline id = (start.bare.query place).outline id := by
  rw [query_bare, ← h.bare, Query.outline, Query.outline, Query.exchange_bare]

/-- Another query that differs in what it remembers alone may take the place of a query. -/
theorem set (h : start.Follows s) (place : Nat) {q : Query} (truthful : q.Truthful)
    (bare : q.bare = (s.query place).bare) {w : Workspace}
    (tables : Tables.Intact start.workspace.tables w.tables) :
    start.Follows ⟨s.queries.set place q, w⟩ where
  truthful other := by
    rw [query, getD_set]
    split
    · exact truthful
    · exact h.truthful other
  bare other := by
    rw [query, getD_set]
    split
    · next here => rw [bare, here.1, h.bare place]
    · exact h.bare other
  tables := tables

/-- **One compilation** comes to what it comes to with nothing remembered, and leaves nothing that
is wrong. -/
theorem compile (h : start.Follows s) (c : Compiler) (place : Nat) {r r' : Request}
    (sources : ∀ q ∈ r.sources, q.Truthful) (sources' : ∀ q ∈ r'.sources, q.Truthful)
    (request : r.outline id = r'.outline id) :
    (s.compile c place r).1 = (start.bare.compile c place r').1 ∧
      start.Follows (s.compile c place r).2 := by
  -- Both come to what the common outline comes to on tables that remember nothing.
  have here : (s.compile c place r).1 =
      c.outcome ((s.query place).outline id) (r.outline id) start.bare.workspace.tables 0 :=
    c.compile_outline (h.truthful place) sources (h.tables.lookup c.context)
  have there : (start.bare.compile c place r').1 =
      c.outcome ((start.bare.query place).outline id) (r'.outline id)
        start.bare.workspace.tables 0 :=
    c.compile_outline (start.truthful_query_bare place) sources' fun _ => rfl
  refine ⟨by rw [here, there, h.outline, request], ?_⟩
  have tables := c.compile_keeps (fun id U intact => intact.resolveAndKeep c.context id)
    (s.query place) r h.tables
  rcases c.compile_query (s.query place) r s.workspace with left | left
  · refine h.set place ?_ (congrArg Query.bare left) tables
    rw [left]
    exact h.truthful place
  · refine h.set place ?_ ((congrArg Query.bare left).trans (Query.bare_indexed _)) tables
    rw [left]
    exact (h.truthful place).indexed

/-- **One call** has the answer that it has with nothing remembered, and leaves nothing that is
wrong. -/
theorem call (h : start.Follows s) (call : Call) (sources : ∀ q ∈ call.sources, q.Truthful) :
    (s.call call).1 = (start.bare.call call.bare).1 ∧ start.Follows (s.call call).2 := by
  cases call with
  | compile c place r =>
    have bare : ∀ q ∈ r.bare.sources, q.Truthful := by
      cases r with
      | insertUsing columns source => exact List.forall_mem_singleton.2 (Query.truthful_bare source)
      | _ => exact List.forall_mem_nil _
    have outline : r.outline id = r.bare.outline id := by
      cases r with
      | insertUsing columns source =>
        exact congrArg (Request.insertUsing columns) (source.exchange_bare (.outline id)).symm
      | _ => rfl
    obtain ⟨answer, follows⟩ := h.compile c place sources bare outline
    exact ⟨congrArg some answer, follows⟩
  | insertFrom c place columns source =>
    have here : ∀ q ∈ (Request.insertUsing columns (s.query source)).sources, q.Truthful :=
      List.forall_mem_singleton.2 (h.truthful source)
    have there : ∀ q ∈ (Request.insertUsing columns (start.bare.query source)).sources,
        q.Truthful := List.forall_mem_singleton.2 (start.truthful_query_bare source)
    have outline : (Request.insertUsing columns (s.query source)).outline id =
        (Request.insertUsing columns (start.bare.query source)).outline id :=
      congrArg (Request.insertUsing columns) (h.outline source)
    obtain ⟨answer, follows⟩ := h.compile c place here there outline
    exact ⟨congrArg some answer, follows⟩
  | index place =>
    exact ⟨rfl, h.set place (h.truthful place).indexed (Query.bare_indexed _) h.tables⟩
  | refresh place =>
    exact ⟨rfl, h.set place (h.truthful place).refreshed (Query.bare_refreshed _) h.tables⟩

/-- **Calls in a row.** -/
theorem run (h : start.Follows s) (calls : List Call)
    (sources : ∀ call ∈ calls, ∀ q ∈ call.sources, q.Truthful) :
    (s.run calls).1 = calls.map (fun call => (start.bare.call call.bare).1) ∧
      start.Follows (s.run calls).2 := by
  induction calls generalizing s with
  | nil => exact ⟨rfl, h⟩
  | cons call calls ih =>
    obtain ⟨answer, follows⟩ := h.call call (sources call List.mem_cons_self)
    obtain ⟨answers, followed⟩ := ih follows fun c member => sources c (List.mem_cons_of_mem _ member)
    exact ⟨congrArg₂ List.cons answer answers, followed⟩

end Follows

/-- In the beginning queries are built and tables are as calls have left them. -/
theorem follows_self {s : Session} {history : List Tables.Call}
    (shared : s.workspace.tables = Tables.after history) (built : ∀ q ∈ s.queries, q.Built) :
    s.Follows s where
  truthful place := by
    rw [query, List.getD_eq_getElem?_getD]
    cases held : s.queries[place]? with
    | none => exact Query.Built.empty.truthful
    | some q => exact (built q (List.mem_of_getElem? held)).truthful
  bare _ := rfl
  tables := ⟨fun _ => rfl, fun id => by
    rw [shared]
    exact (Tables.records_after history id).current⟩

/-- **Nothing leaks.** In a session of built queries, on tables that any calls have left, each of a
row of calls has the answer that it has alone in the session with nothing remembered, be it a
statement or an error. And every table has its texts, its driver and its version as before. -/
theorem no_leakage (s : Session) (history : List Tables.Call)
    (shared : s.workspace.tables = Tables.after history) (built : ∀ q ∈ s.queries, q.Built)
    (calls : List Call) (sources : ∀ call ∈ calls, ∀ q ∈ call.sources, q.Built) :
    (s.run calls).1 = calls.map (fun call => (s.bare.call call.bare).1) ∧
    ∀ id,
      ((s.run calls).2.workspace.tables.get id).fragments = (s.workspace.tables.get id).fragments ∧
      ((s.run calls).2.workspace.tables.get id).driver = (s.workspace.tables.get id).driver ∧
      ((s.run calls).2.workspace.tables.get id).version = (s.workspace.tables.get id).version := by
  obtain ⟨answers, follows⟩ := (follows_self shared built).run calls
    fun call made q member => (sources call made q member).truthful
  exact ⟨answers, fun id => Grammar.cleared_eq_iff.1 (follows.tables.cleared id)⟩

/-- Two queries that share a table with a text for MySQL, and one that reads the other's rows. -/
def sharing : Session where
  queries :=
    [(Query.onTable (.name "a")).addSelect (.raw ⟨.grammar 0 (.native []) 0, []⟩),
     ((Query.onTable (.name "b")).addSelect (.raw ⟨.grammar 0 (.native []) 0, []⟩)).union true
       ((Query.onTable (.name "c")).addSelect (.raw ⟨.text 1 (.native []) "now()", []⟩))]
  workspace := {
    tables := Tables.after [.create, .change 0 (.register .mysql "uuid()" .zero)]
    next := 2 }

theorem sharing_built : ∀ q ∈ sharing.queries, q.Built := by
  have first : Query.Built (Query.onTable (.name "a")) := Query.Built.empty.fromTable _
  have second : Query.Built (Query.onTable (.name "b")) := Query.Built.empty.fromTable _
  have third : Query.Built (Query.onTable (.name "c")) := Query.Built.empty.fromTable _
  exact List.forall_mem_cons.2 ⟨first.addSelect _,
    List.forall_mem_singleton.2 ((second.addSelect _).union true (third.addSelect _))⟩

/-- A statement for MySQL, one for Postgres that fails, and one that reads the rows of a query that
has been asked for its expressions. -/
def sharingCalls : List Call :=
  let mysql : Compiler := ⟨⟨some .mysql, none⟩, .mysql, {}⟩
  let postgres : Compiler := ⟨⟨some .postgres, none⟩, .postgres, {}⟩
  [.compile mysql 0 .select, .compile postgres 0 .select, .index 1,
    .insertFrom mysql 0 ["x"] 1, .compile mysql 1 .select]

theorem sharing_no_leakage :
    (sharing.run sharingCalls).1 =
        sharingCalls.map (fun call => (sharing.bare.call call.bare).1) ∧
      ((sharing.run sharingCalls).2.workspace.tables.get 0).fragments =
        (sharing.workspace.tables.get 0).fragments := by
  have sources : ∀ call ∈ sharingCalls, ∀ q ∈ call.sources, q.Built := by
    simp [sharingCalls, Call.sources, Request.sources]
  obtain ⟨answers, kept⟩ := no_leakage sharing _ rfl sharing_built sharingCalls sources
  exact ⟨answers, (kept 0).1⟩

end Session

end SqlFragments
