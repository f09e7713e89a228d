import SqlFragments.Proofs.WritingAlignment

/-!
# What a request comes down to

Every request but the emptying of a table comes down to a `Form`: a query that is read, the question
whether a query has rows, or a statement that changes rows. A compiler that gets the request runs
its phases for the form and for nothing else (`Compiler.compile_eq`), so what is known of
`Form.run` is known of every request.

A run has two halves: the draft, which resolves and writes and looks at no binding, and the rest,
which evaluates the bindings and looks at no table (`Compiler.run_eq`). So what a run answers depends
on little: `Form.verdict` is the text, or the error, with the phases that were entered, as a function
of the tables, the form and the number of its bindings (`Form.run_outcome`), and
`Compiler.outcome` the same for a request (`Compiler.compile_outcome`).
-/

namespace SqlFragments

/-! ## Forms -/

/-- A statement as a compiler comes to it. -/
inductive Form where
  | select (q : Query)
  | hasRows (q : Query)
  | writing (x : Writing)

namespace Form

/-- The text of the statement. -/
def write {m : Type → Type} [Monad m] [MonadExceptOf Error m] (f : Form) (w : Writer m) :
    m String :=
  match f with
  | select q => w.select q
  | hasRows q => w.hasRows q
  | writing x => x.write w

/-- The bindings that are collected for the statement. -/
def bindings (d : Dialect) : Form → List Binding
  | select q | hasRows q => q.selectBindings
  | writing x => x.bindings d

/-- The query that the statement is made for. -/
def target : Form → Query
  | select q | hasRows q => q
  | writing x => x.target

/-- The queries that the statement reads besides. -/
def others : Form → List Query
  | select _ | hasRows _ => []
  | writing x => x.others

/-- The expressions outside queries. -/
def extra (d : Dialect) : Form → List Expression
  | select _ | hasRows _ => []
  | writing x => x.extra d

/-- The queries of the statement. -/
def queries (f : Form) : List Query := f.target :: f.others

/-- The expressions that a compiler resolves before it writes. -/
def expressions (d : Dialect) (f : Form) : List Expression :=
  f.queries.flatMap Query.expressions ++ f.extra d

/-- The phases of the compilation. -/
def run (c : Compiler) (f : Form) : StateM Workspace (Run Statement) :=
  c.run f.target f.others (f.extra c.dialect) f.write (f.bindings c.dialect)

/-- The form of a request; emptying a table has none. A new expression gets the identity `id`. -/
def ofRequest (q : Query) (id : Identity) : Request → Except Error (Option Form)
  | .select => .ok (some (select q))
  | .hasRows => .ok (some (hasRows q))
  | .aggregate function columns =>
    .ok (some (select (q.withAggregate ⟨function, columns.map Ident.name⟩)))
  | r => do return (← Writing.ofRequest q id r).map writing

/-- The expressions in the queries of the statement, in its rows and among its assigned values, as a
scan finds them. -/
def reachable (d : Dialect) (f : Form) : List Expression :=
  f.queries.flatMap Query.scan ++ f.extra d

section Writers

variable {m n : Type → Type} [Monad m] [MonadExceptOf Error m] [Monad n] [MonadExceptOf Error n]
  {S : Simulation m n} {w : Writer m} {v : Writer n}

/-- A statement asks for no expression but those that a scan finds. -/
theorem writersOn_write {P : Expression → Prop} (h : S.WritersOn P w v) {f : Form}
    (within : ∀ e ∈ f.reachable w.dialect, P e) : S.rel (f.write w) (f.write v) := by
  have target : ∀ e ∈ f.target.scan, P e := fun e member =>
    within e (List.mem_append_left _ (List.mem_flatMap.2 ⟨f.target, List.mem_cons_self, member⟩))
  cases f with
  | select q => exact h.select q target
  | hasRows q => exact h.hasRows target
  | writing x => exact x.writersOn_write h within

theorem writers_write (h : S.Writers w v) (f : Form) : S.rel (f.write w) (f.write v) :=
  writersOn_write h.everywhere fun _ _ => trivial

end Writers

end Form

namespace Request

/-- The queries that the request reads besides its own. -/
def sources : Request → List Query
  | insertUsing _ source => [source]
  | _ => []

/-- The rows and the assigned values of the request. A change by an amount takes the place of a value
that is assigned to the same column. -/
def records : Request → List Record
  | insert rows | insertOrIgnore rows => rows
  | insertGetId row _ => [row]
  | update values => [values]
  | step column _ _ extra => [extra.without column]
  | upsert rows _ _ given => rows ++ [given]
  | select | hasRows | aggregate _ _ | insertUsing _ _ | delete | truncate => []

/-- The query that the statement of a request is made for: an aggregate is taken of a copy. -/
def target (r : Request) (q : Query) : Query :=
  match r with
  | aggregate function columns => q.withAggregate ⟨function, columns.map Ident.name⟩
  | _ => q

/-- The workspace in which a compiler runs its phases: a change by an amount makes an expression. -/
def charge (r : Request) (w : Workspace) : Workspace :=
  match r with
  | step _ _ _ _ => { w with next := w.next + 1 }
  | _ => w

/-- The query that a compilation leaves, where its run leaves `after`: an aggregate is taken of a
copy. -/
def leaves (r : Request) (q after : Query) : Query :=
  match r with
  | aggregate _ _ => q
  | _ => after

end Request

/-- A statement reads the queries of its request. -/
theorem Writing.queries_of_request {q : Query} {id : Identity} {r : Request} {w : Writing}
    (made : ofRequest q id r = .ok (some w)) : w.target = q ∧ w.others = r.sources := by
  cases r with
  | select | hasRows | aggregate | truncate => cases made
  | insertGetId | insertUsing | update | step | delete =>
    cases made
    exact ⟨rfl, rfl⟩
  | insert rows | insertOrIgnore rows =>
    simp only [ofRequest, bind_eq_ok, pure_eq_ok, Option.some.injEq] at made
    obtain ⟨normal, _, rfl⟩ := made
    exact ⟨rfl, rfl⟩
  | upsert rows uniqueBy changed given =>
    rw [ofRequest] at made
    split at made
    all_goals
      simp only [bind_eq_ok, pure_eq_ok, Option.some.injEq] at made
      obtain ⟨normal, _, rfl⟩ := made
      exact ⟨rfl, rfl⟩

namespace Form

variable {q : Query} {id : Identity} {r : Request} {f : Form}

/-- A form reads the queries of its request. -/
theorem queries_of_request (made : ofRequest q id r = .ok (some f)) :
    f.queries = r.target q :: r.sources := by
  cases r with
  | select | hasRows | aggregate =>
    cases made
    rfl
  | insert | insertOrIgnore | insertGetId | insertUsing | update | step | upsert | delete
  | truncate =>
    simp only [ofRequest, bind_eq_ok, pure_eq_ok] at made
    obtain ⟨written, made, mapped⟩ := made
    obtain ⟨w, rfl, rfl⟩ := Option.map_eq_some_iff.1 mapped
    obtain ⟨target, others⟩ := Writing.queries_of_request made
    rw [queries, Form.target, Form.others, target, others]
    rfl

/-- The queries of a form are truthful when those of its request are. -/
theorem truthful_of_request (h : q.Truthful) (sources : ∀ s ∈ r.sources, s.Truthful)
    (made : ofRequest q id r = .ok (some f)) : ∀ p ∈ f.queries, p.Truthful := by
  have target : (r.target q).Truthful := by
    cases r with
    | aggregate => exact h.withAggregate _
    | select | hasRows | insert | insertOrIgnore | insertGetId | insertUsing | update | step
    | upsert | delete | truncate => exact h
  rw [queries_of_request made]
  exact List.forall_mem_cons.2 ⟨target, sources⟩

end Form

/-- **Requests come down to forms.** A compiler refuses a request whose rows do not fit together,
and answers the emptying of a table at once; for any other it runs its phases for the form. -/
theorem Compiler.compile_eq (c : Compiler) (q : Query) (r : Request) (w : Workspace) :
    c.compile q r w =
      match Form.ofRequest q w.next r with
      | .error e => (⟨.error e, [], q⟩, w)
      | .ok none => ((c.truncate q).map .several, w)
      | .ok (some f) =>
        let ran := f.run c (r.charge w)
        (⟨ran.1.answer.map .one, ran.1.phases, r.leaves q ran.1.query⟩, ran.2) := by
  cases r with
  | select | hasRows | aggregate | truncate | insertGetId | insertUsing | update | step | delete =>
    rfl
  | insert rows =>
    simp only [compile, insert, Form.ofRequest, Writing.ofRequest]
    cases Record.normalizeRows rows <;> rfl
  | insertOrIgnore rows =>
    simp only [compile, insertOrIgnore, Form.ofRequest, Writing.ofRequest]
    cases Record.normalizeRows rows <;> rfl
  | upsert rows uniqueBy changed given =>
    simp only [compile, upsert, insertOrIgnore, Form.ofRequest, Writing.ofRequest]
    split <;> cases Record.normalizeRows rows <;> rfl

theorem Compiler.compile_of_form {c : Compiler} {q : Query} {r : Request} {w : Workspace} {f : Form}
    (made : Form.ofRequest q w.next r = .ok (some f)) :
    c.compile q r w =
      let ran := f.run c (r.charge w)
      (⟨ran.1.answer.map .one, ran.1.phases, r.leaves q ran.1.query⟩, ran.2) := by
  rw [compile_eq, made]

/-- A compilation answers what the run of its form answers. -/
theorem Compiler.answer_of_form {c : Compiler} {q : Query} {r : Request} {w : Workspace} {f : Form}
    (made : Form.ofRequest q w.next r = .ok (some f)) :
    (c.compile q r w).1.answer = (f.run c (r.charge w)).1.answer.map .one := by
  rw [compile_of_form made]

/-- What empties a table is several statements. -/
theorem Compiler.truncate_ne_one (c : Compiler) (q : Query) (s : Statement) :
    ((c.truncate q).map Compiled.several).answer ≠ .ok (.one s) := by
  dsimp only [truncate]
  cases c.dialect.truncateQuery q <;> exact nofun

namespace Request

variable (r : Request) (w : Workspace)

/-- The expression that a change by an amount makes has no table and no binding. -/
@[simp] theorem charge_tables : (r.charge w).tables = w.tables := by
  cases r <;> rfl

@[simp] theorem charge_cells : (r.charge w).cells = w.cells := by
  cases r <;> rfl

theorem charge_with_cells (cells : Cells) :
    r.charge { w with cells := cells } = { r.charge w with cells := cells } := by
  cases r <;> rfl

end Request

/-! ## The two halves of a run -/

namespace Compiler

/-- The half of a run before the bindings are collected: the written text, or why there is none. -/
def draft (c : Compiler) (q : Query) (others : List Query) (extra : List Expression)
    (write : Writer Resolution → Resolution String) : StateM Workspace (Run String) := fun w =>
  match (q :: others).findSome? Query.fault with
  | some fault => (⟨.error (.invalid fault), [.configuring], q⟩, w)
  | none =>
    let expressions := (q :: others).flatMap Query.expressions ++ extra
    match Workspace.resolving (configure c.context expressions) w with
    | (.error e, w) => (⟨.error e, [.configuring], q.indexed⟩, w)
    | (.ok _, w) =>
      let (answer, w) := Workspace.resolving (write (.remembering c.dialect c.context)) w
      (⟨answer, [.configuring, .rendering], q.indexed⟩, w)

/-- The half of a run after its draft. -/
def settle (c : Compiler) (bindings : List Binding) (draft : Run String) :
    StateM Workspace (Run Statement) := fun w =>
  match draft.answer with
  | .error e => (⟨.error e, draft.phases, draft.query⟩, w)
  | .ok sql =>
    let (values, w) := Workspace.evaluating (Binding.evaluateAll bindings) w
    match c.finish sql values with
    | .error e => (⟨.error e, draft.phases ++ [.collecting], draft.query⟩, w)
    | .ok s => (⟨.ok s, draft.phases ++ [.collecting, .done], draft.query⟩, w)

/-- A written text is checked against the values of the bindings. -/
theorem settle_ok (c : Compiler) (bindings : List Binding) (sql : String)
    (phases : List Phase) (q : Query) (w : Workspace) :
    c.settle bindings ⟨.ok sql, phases, q⟩ w =
      let after := { w with cells := ((Binding.evaluateAll bindings).run w.cells).2 }
      match c.finish sql ((Binding.evaluateAll bindings).run w.cells).1 with
      | .error e => (⟨.error e, phases ++ [.collecting], q⟩, after)
      | .ok s => (⟨.ok s, phases ++ [.collecting, .done], q⟩, after) := rfl

theorem run_eq (c : Compiler) (q : Query) (others : List Query) (extra : List Expression)
    (write : Writer Resolution → Resolution String) (bindings : List Binding) (w : Workspace) :
    c.run q others extra write bindings w =
      c.settle bindings (c.draft q others extra write w).1 (c.draft q others extra write w).2 := by
  unfold run draft
  cases (q :: others).findSome? Query.fault with
  | some fault => rfl
  | none =>
    dsimp only
    rcases Workspace.resolving (configure c.context _) w with ⟨e | n, w⟩
    · rfl
    · dsimp only
      rcases Workspace.resolving (write (.remembering c.dialect c.context)) w with ⟨e | sql, w⟩
      · rfl
      · rfl

/-- What a draft comes to with the values of the bindings. -/
theorem settle_answer (c : Compiler) (bindings : List Binding) (draft : Run String)
    (w : Workspace) :
    (c.settle bindings draft w).1.answer =
      draft.answer.bind fun sql => c.finish sql ((Binding.evaluateAll bindings).run w.cells).1 := by
  obtain ⟨e | sql, phases, q⟩ := draft
  · rfl
  · rw [settle_ok]
    dsimp only [Except.bind]
    cases c.finish sql ((Binding.evaluateAll bindings).run w.cells).1 <;> rfl

end Compiler

/-! ## Verdicts -/

/-- Resolves every expression that needs a table, where `table` gives the text of a table, and counts
them. -/
def configured (table : TableId → Except Error String) : List Expression → Except Error Nat
  | [] => pure 0
  | e :: rest =>
    if e.isGrammar then do
      let _ ← e.resolve table
      let others ← configured table rest
      return others + 1
    else configured table rest

/-- Resolving ahead finds what the tables hold. -/
theorem Tables.recalling_configure (ctx : Context) (T : Tables) (es : List Expression) :
    (recalling ctx T).rel (configure ctx es) (configured (T.lookup ctx) es) := by
  induction es with
  | nil => exact (recalling ctx T).pure 0
  | cons e es ih =>
    rw [configure, configured]
    split
    · exact (recalling ctx T).bind (recalling_resolve ctx T e) fun _ =>
        (recalling ctx T).bind ih fun _ => (recalling ctx T).pure _
    · exact ih

/-- The text or the error of a run, and the phases that it has entered. -/
def Run.outcome {α β : Type} (text : α → β) (r : Run α) : Except Error β × List Phase :=
  (r.answer.map text, r.phases)

namespace Compiler

variable (c : Compiler)

/-- What a written text comes to with a number of bindings. -/
def judge (sql : String) (bindings : Nat) : Except Error String :=
  let placeholders := countPlaceholders c.dialect.escapesBackslash sql
  if c.settings.verify && placeholders != bindings then
    .error (.placeholderMismatch placeholders bindings sql)
  else
    match c.settings.style with
    | .question => .ok sql
    | .numbered => .ok (numberPlaceholders sql)

/-- Of the values only their number matters for the text. -/
theorem finish_sql (sql : String) (values : List Value) :
    (c.finish sql values).map Statement.sql = c.judge sql values.length := by
  unfold finish judge
  dsimp only
  split
  · rfl
  · cases c.settings.style <;> rfl

/-- What the first two phases come to, and the phases. -/
def draftVerdict (fault : Option Fault) (resolved : Except Error Nat)
    (written : Except Error String) : Except Error String × List Phase :=
  match fault, resolved with
  | some fault, _ => (.error (.invalid fault), [.configuring])
  | none, .error e => (.error e, [.configuring])
  | none, .ok _ => (written, [.configuring, .rendering])

/-- What a draft comes to with a number of bindings, and the phases. -/
def settledVerdict (bindings : Nat) :
    Except Error String × List Phase → Except Error String × List Phase
  | (.error e, phases) => (.error e, phases)
  | (.ok sql, phases) =>
    match c.judge sql bindings with
    | .error e => (.error e, phases ++ [.collecting])
    | .ok text => (.ok text, phases ++ [.collecting, .done])

/-- The draft is that on tables which are only read. -/
theorem draft_outcome (q : Query) (others : List Query) (extra : List Expression)
    {write : Writer Resolution → Resolution String} (w : Workspace) {text : Except Error String}
    (written : (Tables.recalling c.context w.tables).rel
      (write (.remembering c.dialect c.context)) text) :
    ((c.draft q others extra write w).1.answer, (c.draft q others extra write w).1.phases) =
      draftVerdict ((q :: others).findSome? Query.fault)
        (configured (w.tables.lookup c.context)
          ((q :: others).flatMap Query.expressions ++ extra)) text := by
  have agreed : Tables.Agree c.context w.tables w.tables := fun _ => rfl
  obtain ⟨resolved, kept⟩ := Tables.recalling_configure c.context w.tables
    ((q :: others).flatMap Query.expressions ++ extra) w.tables agreed
  unfold draft
  cases fault : (q :: others).findSome? Query.fault with
  | some fault => rfl
  | none =>
    dsimp only [Workspace.resolving]
    rcases first : (configure c.context _).run.run w.tables with ⟨e | n, T⟩
    · rw [first] at resolved
      rw [← resolved]
      rfl
    · rw [first] at resolved kept
      rw [← resolved, ← (written T kept).1]
      rfl

theorem settle_outcome (bindings : List Binding) (draft : Run String) (w : Workspace) :
    (c.settle bindings draft w).1.outcome Statement.sql =
      c.settledVerdict bindings.length (draft.answer, draft.phases) := by
  obtain ⟨e | sql, phases, q⟩ := draft
  · rfl
  · rw [settle_ok, settledVerdict, ← Binding.length_evaluateAll bindings w.cells]
    dsimp only
    rw [← c.finish_sql]
    cases c.finish sql ((Binding.evaluateAll bindings).run w.cells).1 <;> rfl

end Compiler

namespace Form

/-- What a compiler comes to on tables that are only read. -/
def verdict (c : Compiler) (f : Form) (T : Tables) : Except Error String × List Phase :=
  c.settledVerdict (f.bindings c.dialect).length
    (Compiler.draftVerdict (f.queries.findSome? Query.fault)
      (configured (T.lookup c.context) (f.expressions c.dialect))
      (f.write (.reading c.dialect c.context T)))

/-- **Verdicts.** A run comes to what its form comes to on tables that are only read. -/
theorem run_outcome (c : Compiler) (f : Form) (w : Workspace) :
    (f.run c w).1.outcome Statement.sql = f.verdict c w.tables := by
  have written := f.writers_write (Tables.recalling_writers c.dialect c.context w.tables)
  rw [run, Compiler.run_eq, Compiler.settle_outcome, c.draft_outcome _ _ _ w written]
  rfl

end Form

/-- The texts of the statements. -/
def Compiled.texts : Compiled → List String
  | one s => [s.sql]
  | several ss => ss.map Statement.sql

namespace Compiler

variable (c : Compiler) (q : Query) (r : Request)

/-- What a request comes to on tables that are only read: the texts or the error, and the phases. A
new expression gets the identity `id`. -/
def outcome (T : Tables) (id : Identity) : Except Error (List String) × List Phase :=
  match Form.ofRequest q id r with
  | .error e => (.error e, [])
  | .ok none => (c.truncate q).outcome (List.map Statement.sql)
  | .ok (some f) => let v := f.verdict c T; (v.1.map ([·]), v.2)

/-- **Outcomes.** A compilation comes to what its request comes to on tables that are only read. -/
theorem compile_outcome (w : Workspace) :
    (c.compile q r w).1.outcome Compiled.texts = c.outcome q r w.tables w.next := by
  rw [compile_eq, outcome]
  rcases Form.ofRequest q w.next r with e | - | f
  · rfl
  · simp only [Run.outcome, Run.map]
    cases (c.truncate q).answer <;> rfl
  · dsimp only
    rw [← r.charge_tables w, ← f.run_outcome c (r.charge w)]
    simp only [Run.outcome]
    cases (f.run c (r.charge w)).1.answer <;> rfl

end Compiler

end SqlFragments
