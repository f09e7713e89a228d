import SqlFragments.Proofs.Phases
import SqlFragments.Proofs.Reordering

/-!
# What is resolved before anything is written

A compiler resolves every expression that needs a table before it writes (`configure`). That is
complete: the writer asks for no other text that could be missing (`Form.write_eq_of_agree`), so
once all have been resolved no table is the reason that a statement is not written
(`Form.refusing_write`), and a compilation fails for a table exactly when an expression within reach
of the request has no text; the first of them says why (`Compiler.configuration_complete`).
-/

namespace SqlFragments

/-! ## Expressions with and without a text -/

/-- The expression has a text, where `table` gives the text of a table. -/
def Expression.Resolves (table : TableId → Except Error String) (x : Expression) : Prop :=
  ∃ sql, x.resolve table = .ok sql

/-- An expression that needs no table has the same text whatever the tables hold. -/
theorem Expression.resolve_eq_of_plain {m : Type → Type} [Monad m] {x : Expression}
    (plain : x.isGrammar = false) (table table' : TableId → m String) :
    x.resolve table = x.resolve table' := by
  induction x with
  | text id origin sql => rfl
  | grammar id origin place => cases plain
  | layer id origin inner ih => exact ih plain

theorem Expression.resolves_of_plain {x : Expression} (plain : x.isGrammar = false)
    (table : TableId → Except Error String) : x.Resolves table :=
  match x, plain with
  | .text _ _ sql, _ => ⟨sql, rfl⟩
  | .layer _ _ inner, plain => inner.resolves_of_plain plain table

/-- The first of the expressions that has no text needs a table, and `e` is why it has none. -/
inductive FirstFailing (table : TableId → Except Error String) (e : Error) :
    List Expression → Prop
  | here {x : Expression} {xs : List Expression} (grammar : x.isGrammar = true)
    (failed : x.resolve table = .error e) : FirstFailing table e (x :: xs)
  | later {x : Expression} {xs : List Expression} (resolved : x.Resolves table)
    (rest : FirstFailing table e xs) : FirstFailing table e (x :: xs)

section Configured

variable {table : TableId → Except Error String} {e : Error} {es : List Expression}

theorem FirstFailing.exists_mem (h : FirstFailing table e es) :
    ∃ x ∈ es, x.isGrammar = true ∧ x.resolve table = .error e := by
  induction h with
  | here grammar failed => exact ⟨_, List.mem_cons_self, grammar, failed⟩
  | later _ _ ih =>
    obtain ⟨x, member, found⟩ := ih
    exact ⟨x, List.mem_cons_of_mem _ member, found⟩

/-- Where an expression before has a text, the first without one is among the others. -/
theorem firstFailing_cons_iff {x : Expression} (resolved : x.Resolves table) :
    FirstFailing table e (x :: es) ↔ FirstFailing table e es := by
  refine ⟨fun h => ?_, .later resolved⟩
  cases h with
  | here _ failed =>
    obtain ⟨sql, found⟩ := resolved
    cases found.symm.trans failed
  | later _ rest => exact rest

/-- **Resolving ahead** fails with the error of the first expression that has no text. -/
theorem configured_eq_error_iff : configured table es = .error e ↔ FirstFailing table e es := by
  induction es with
  | nil =>
    constructor
    · intro failed
      cases failed
    · intro first
      cases first
  | cons x es ih =>
    rw [configured]
    split
    · next grammar =>
      cases found : x.resolve table with
      | ok sql =>
        rw [firstFailing_cons_iff ⟨sql, found⟩, ← ih]
        cases configured table es with
        | ok n =>
          constructor
          · intro failed
            cases failed
          · intro failed
            cases failed
        | error e' => exact Iff.rfl
      | error e' =>
        refine ⟨fun failed => ?_, fun first => ?_⟩
        · cases failed
          exact .here grammar found
        · cases first with
          | here _ failed => exact congrArg Except.error (Except.error.inj (found ▸ failed))
          | later resolved _ =>
            obtain ⟨sql, other⟩ := resolved
            cases found.symm.trans other
    · next plain =>
      rw [firstFailing_cons_iff (x.resolves_of_plain (Bool.eq_false_iff.2 plain) table)]
      exact ih

/-- Resolving ahead succeeds exactly when all expressions have a text. -/
theorem configured_ok_iff : (∃ n, configured table es = .ok n) ↔ ∀ x ∈ es, x.Resolves table := by
  induction es with
  | nil => exact iff_of_true ⟨0, rfl⟩ (List.forall_mem_nil _)
  | cons x es ih =>
    rw [List.forall_mem_cons, ← ih, configured]
    split
    · cases found : x.resolve table with
      | ok sql =>
        have resolved : x.Resolves table := ⟨sql, found⟩
        cases configured table es with
        | ok n => exact iff_of_true ⟨n + 1, rfl⟩ ⟨resolved, n, rfl⟩
        | error e =>
          constructor
          · rintro ⟨n, ⟨⟩⟩
          · rintro ⟨-, n, ⟨⟩⟩
      | error e =>
        constructor
        · rintro ⟨n, ⟨⟩⟩
        · rintro ⟨⟨sql, other⟩, -⟩
          cases found.symm.trans other
    · next plain =>
      exact (and_iff_right
        (x.resolves_of_plain (Bool.eq_false_iff.2 plain) table)).symm

/-- Where one of the expressions has no text there is a first one. -/
theorem exists_firstFailing {x : Expression} (member : x ∈ es) (nothing : ¬ x.Resolves table) :
    ∃ e, FirstFailing table e es := by
  cases failed : configured table es with
  | ok n => exact absurd (configured_ok_iff.1 ⟨n, failed⟩ x member) nothing
  | error e => exact ⟨e, configured_eq_error_iff.1 failed⟩

end Configured

/-! ## What a request reaches -/

namespace Request

/-- The expressions in the queries of a request, in its rows and among its assigned values. -/
def reachable (r : Request) (q : Query) : List Expression :=
  (r.target q).scan ++ r.sources.flatMap Query.scan ++ r.records.flatMap Record.expressions

end Request

/-- A statement finds the rows and assigned values of its request: what it adds needs no table. -/
theorem Writing.mem_extra_of_request {d : Dialect} {q : Query} {id : Identity} {r : Request}
    {w : Writing} (made : ofRequest q id r = .ok (some w)) {x : Expression}
    (grammar : x.isGrammar = true) :
    x ∈ w.extra d ↔ x ∈ r.records.flatMap Record.expressions := by
  cases r with
  | select | hasRows | aggregate | truncate => cases made
  | insertUsing | delete =>
    cases made
    exact Iff.rfl
  | insertGetId | update =>
    cases made
    rw [extra, Request.records, List.flatMap_singleton]
  | step column down amount given =>
    cases made
    rw [extra, Request.records, List.flatMap_singleton]
    refine List.mem_cons.trans (or_iff_right fun same => ?_)
    rw [same] at grammar
    cases grammar
  | insert rows | insertOrIgnore rows =>
    simp only [ofRequest, bind_eq_ok, pure_eq_ok, Option.some.injEq] at made
    obtain ⟨normal, ordered, rfl⟩ := made
    exact Record.mem_expressions_of_normalizeRows ordered
  | upsert rows uniqueBy changed given =>
    rw [Request.records, List.flatMap_append, List.flatMap_singleton, List.mem_append]
    rw [ofRequest] at made
    split at made
    · next unchanged =>
      simp only [bind_eq_ok, pure_eq_ok, Option.some.injEq] at made
      obtain ⟨normal, ordered, rfl⟩ := made
      have nothing : given.expressions = [] := by
        rw [Bool.and_eq_true] at unchanged
        rw [Record.expressions, List.isEmpty_iff.1 unchanged.2]
        rfl
      rw [nothing, or_iff_left List.not_mem_nil]
      exact Record.mem_expressions_of_normalizeRows ordered
    · simp only [bind_eq_ok, pure_eq_ok, Option.some.injEq] at made
      obtain ⟨normal, ordered, rfl⟩ := made
      rw [extra, List.mem_append, Record.mem_expressions_of_normalizeRows ordered]

namespace Form

variable {d : Dialect} {q : Query} {id : Identity} {r : Request} {f : Form}

theorem mem_extra_of_request (made : ofRequest q id r = .ok (some f)) {x : Expression}
    (grammar : x.isGrammar = true) : x ∈ f.extra d ↔ x ∈ r.records.flatMap Record.expressions := by
  cases r with
  | select | hasRows | aggregate =>
    cases made
    exact Iff.rfl
  | insert | insertOrIgnore | insertGetId | insertUsing | update | step | upsert | delete
  | truncate =>
    simp only [ofRequest, bind_eq_ok, pure_eq_ok] at made
    obtain ⟨written, made, mapped⟩ := made
    obtain ⟨w, rfl, rfl⟩ := Option.map_eq_some_iff.1 mapped
    exact Writing.mem_extra_of_request made grammar

/-- Of the expressions that need a table, a form reaches those that its request reaches. -/
theorem mem_reachable_of_request (made : ofRequest q id r = .ok (some f)) {x : Expression}
    (grammar : x.isGrammar = true) : x ∈ f.reachable d ↔ x ∈ r.reachable q := by
  rw [reachable, Request.reachable, queries_of_request made, List.flatMap_cons]
  simp only [List.mem_append, mem_extra_of_request made grammar]

/-- The expressions that are resolved are those that a scan finds. -/
theorem expressions_eq_reachable (truthful : ∀ p ∈ f.queries, p.Truthful) :
    f.expressions d = f.reachable d := by
  rw [expressions, reachable, List.flatMap_congr fun p member => (truthful p member).expressions]

/-! ## What a writer asks for -/

/-- A statement whose expressions all have texts is written, or refused. -/
theorem refusing_write {table : TableId → Except Error String}
    (resolved : ∀ x ∈ f.reachable d, x.Resolves table) :
    Refusing (f.write ⟨d, Expression.resolve table⟩) := by
  have writers : (failingWith (fun e => e.isRefusal = true) fun _ => id).WritersOn
      (Expression.Resolves table) ⟨d, Expression.resolve table⟩ ⟨d, Expression.resolve table⟩ := by
    refine ⟨rfl, fun x found e failed => ?_⟩
    obtain ⟨sql, found⟩ := found
    cases found.symm.trans failed
  exact f.writersOn_write writers resolved

/-- Work that is the same. -/
def same (m : Type → Type) [Monad m] [MonadExceptOf Error m] : Simulation m m where
  rel x y := x = y
  pure _ := rfl
  bind first next := by rw [first, funext next]
  refuse _ _ := rfl

/-- A statement is written alike where its expressions that need a table are resolved alike. -/
theorem write_eq_of_agree {m : Type → Type} [Monad m] [MonadExceptOf Error m]
    {table table' : TableId → m String}
    (agree : ∀ x ∈ f.reachable d, x.isGrammar = true → x.resolve table = x.resolve table') :
    f.write ⟨d, Expression.resolve table⟩ = f.write ⟨d, Expression.resolve table'⟩ := by
  have writers : (same m).WritersOn (fun x => x.resolve table = x.resolve table')
      ⟨d, Expression.resolve table⟩ ⟨d, Expression.resolve table'⟩ := ⟨rfl, fun _ => id⟩
  refine f.writersOn_write writers fun x member => ?_
  cases grammar : x.isGrammar with
  | true => exact agree x member grammar
  | false => exact x.resolve_eq_of_plain grammar table table'

/-- A run fails for a table exactly when resolving ahead does. -/
theorem answer_eq_error_iff {c : Compiler} {w : Workspace}
    (faultless : f.queries.findSome? Query.fault = none)
    (truthful : ∀ p ∈ f.queries, p.Truthful) {e : Error} (grammar : e.isGrammar = true) :
    (f.run c w).1.answer = .error e ↔
      configured (w.tables.lookup c.context) (f.expressions c.dialect) = .error e := by
  have ran := f.ran c w
  generalize (f.run c w).1.answer = answer, (f.run c w).1.phases = phases,
    (f.run c w).2.cells = cells at ran ⊢
  cases ran with
  | faulty faulted => cases faultless.symm.trans faulted
  | unresolved _ failed =>
    rw [failed, Except.error.injEq, Except.error.injEq]
  | unwritten _ resolved failed =>
    rw [resolved]
    refine iff_of_false (fun same => ?_) nofun
    cases same
    have texts := configured_ok_iff.1 ⟨_, resolved⟩
    rw [expressions_eq_reachable truthful] at texts
    have refused := Error.isGrammar_of_isRefusal (refusing_write texts _ failed)
    cases refused.symm.trans grammar
  | mismatched _ resolved _ failed =>
    rw [resolved]
    refine iff_of_false (fun same => ?_) nofun
    cases same
    rw [Compiler.mismatch_of_finish failed] at grammar
    cases grammar
  | done _ resolved _ _ =>
    rw [resolved]
    exact iff_of_false nofun nofun

/-- Once all has been resolved, what is written on the tables as they are then does not fail for a
table. -/
theorem isGrammar_of_remembering {ctx : Context} {T U : Tables} {n : Nat} {e : Error}
    (truthful : ∀ p ∈ f.queries, p.Truthful)
    (resolved : (configure ctx (f.expressions d)).run.run T = (.ok n, U))
    (failed : ((f.write (.remembering d ctx)).run.run U).1 = .error e) : e.isGrammar = false := by
  obtain ⟨answered, agree⟩ :=
    Tables.recalling_configure ctx T (f.expressions d) T fun _ => rfl
  rw [resolved] at answered agree
  have texts := configured_ok_iff.1 ⟨n, answered.symm⟩
  rw [expressions_eq_reachable truthful] at texts
  have written := (f.writers_write (Tables.recalling_writers d ctx T) U agree).1
  rw [failed] at written
  exact Error.isGrammar_of_isRefusal (refusing_write texts e written.symm)

end Form

/-- A query without faults makes a statement without faults. -/
theorem Form.faultless_of_request {q : Query} {id : Identity} {r : Request} {f : Form}
    (made : ofRequest q id r = .ok (some f)) (faultless : ∀ p ∈ q :: r.sources, p.fault = none) :
    f.queries.findSome? Query.fault = none := by
  have target : (r.target q).fault = q.fault := by
    cases r <;> rfl
  rw [queries_of_request made, List.findSome?_eq_none_iff]
  rw [List.forall_mem_cons] at faultless ⊢
  exact ⟨target.trans faultless.1, faultless.2⟩

namespace Compiler

/-- **Configuration is complete.** A request for built queries without faults, whose rows fit
together, fails for a table exactly when an expression within its reach has no text, with the error
of the first that has none. Once all have been resolved, nothing is left to fail for a table: of the
texts that a writer asks for, it matters for no other expression what the tables hold. -/
theorem configuration_complete (c : Compiler) {q : Query} {r : Request} {w : Workspace} {f : Form}
    (made : Form.ofRequest q w.next r = .ok (some f)) (built : ∀ p ∈ q :: r.sources, p.Built)
    (faultless : ∀ p ∈ q :: r.sources, p.fault = none) :
    (∀ e, e.isGrammar = true → ((c.compile q r w).1.answer = .error e ↔
      FirstFailing (w.tables.lookup c.context) e (f.reachable c.dialect))) ∧
    ((∃ e, e.isGrammar = true ∧ (c.compile q r w).1.answer = .error e) ↔
      ∃ x ∈ r.reachable q, x.isGrammar = true ∧ ¬ x.Resolves (w.tables.lookup c.context)) ∧
    (∀ n T, (configure c.context (f.expressions c.dialect)).run.run w.tables = (.ok n, T) →
      ∀ e, ((f.write (.remembering c.dialect c.context)).run.run T).1 = .error e →
        e.isGrammar = false) ∧
    (∀ (m : Type → Type) [Monad m] [MonadExceptOf Error m] (table table' : TableId → m String),
      (∀ x ∈ f.expressions c.dialect, x.isGrammar = true → x.resolve table = x.resolve table') →
        f.write ⟨c.dialect, Expression.resolve table⟩ =
          f.write ⟨c.dialect, Expression.resolve table'⟩) := by
  rw [List.forall_mem_cons] at built
  have truthful := Form.truthful_of_request built.1.truthful
    (fun s member => (built.2 s member).truthful) made
  have found := f.expressions_eq_reachable (d := c.dialect) truthful
  have first : ∀ e, e.isGrammar = true → ((c.compile q r w).1.answer = .error e ↔
      FirstFailing (w.tables.lookup c.context) e (f.reachable c.dialect)) := by
    intro e grammar
    rw [← found, ← configured_eq_error_iff, ← r.charge_tables w,
      ← Form.answer_eq_error_iff (Form.faultless_of_request made faultless) truthful grammar,
      compile_of_form made]
    exact map_eq_error
  refine ⟨first, ⟨?_, ?_⟩,
    fun n T resolved e failed => Form.isGrammar_of_remembering truthful resolved failed,
    fun m _ _ table table' agree => Form.write_eq_of_agree (found ▸ agree)⟩
  · rintro ⟨e, grammar, failed⟩
    obtain ⟨x, member, needed, nothing⟩ := ((first e grammar).1 failed).exists_mem
    refine ⟨x, (Form.mem_reachable_of_request made needed).1 member, needed, ?_⟩
    rintro ⟨sql, text⟩
    cases text.symm.trans nothing
  · rintro ⟨x, member, needed, nothing⟩
    obtain ⟨e, failed⟩ :=
      exists_firstFailing ((Form.mem_reachable_of_request made needed).2 member) nothing
    have grammar := isGrammar_of_configured (configured_eq_error_iff.2 failed)
    exact ⟨e, grammar, (first e grammar).2 failed⟩

/-- Two rows that set their columns in different orders; the price of the second comes from a table,
by way of an adapter and a wrapper. -/
def pricedRows : Request :=
  .insert [
    ⟨[("name", .bound (.literal (.text "tea"))), ("price", .inline (.text 0 (.native []) "1 + 1"))],
      by decide⟩,
    ⟨[("price", .inline (.layer 3 (.native []) (.layer 2 .adapter (.grammar 1 (.native []) 0)))),
      ("name", .bound (.literal (.text "coffee")))], by decide⟩]

/-- The table of prices knows another database than the one that is compiled for. -/
theorem pricedRows_unresolved :
    let c : Compiler := ⟨⟨some .postgres, none⟩, .postgres, {}⟩
    let prices : Grammar := Grammar.register {} .mysql "if(state = 'TX', 1, 2)"
    (c.compile (.onTable (.name "orders")) pricedRows ⟨⟨[prices]⟩, {}, 4⟩).1.answer =
      .error (.driverUndefined .postgres [(.mysql, [.zero])]) := by
  intro c prices
  have made : Form.ofRequest (.onTable (.name "orders")) 4 pricedRows = .ok (some (.writing (.insert
      (.onTable (.name "orders")) [
        ⟨[("name", .bound (.literal (.text "tea"))),
          ("price", .inline (.text 0 (.native []) "1 + 1"))], by decide⟩,
        ⟨[("name", .bound (.literal (.text "coffee"))),
          ("price", .inline (.layer 3 (.native []) (.layer 2 .adapter
            (.grammar 1 (.native []) 0))))], by decide⟩]))) := rfl
  have built : ∀ p ∈ [Query.onTable (.name "orders")], p.Built :=
    List.forall_mem_singleton.2 (Query.Built.empty.fromTable _)
  refine ((c.configuration_complete made built (by decide)).1 _ rfl).2 ?_
  exact .later ⟨"1 + 1", rfl⟩ (.here rfl rfl)

end Compiler

end SqlFragments
