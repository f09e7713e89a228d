import SqlFragments.Proofs.Forms

/-!
# How a compilation ends

A compilation ends in one of a few ways: a fault ends it at once, an expression without a text
before anything is written, a refusal while it writes, a wrong number of placeholders when the
bindings have been evaluated; or it succeeds. `Form.Ran` tells these ways apart, each with what is
known then, the phases that were entered and the cells as they are left; `Compiler.Came` adds what
happens to a request before its phases. What is to be shown of all compilations is shown case by
case.

The bindings are evaluated in the last two ways alone, when all else that can fail is done. So a
compilation that fails before neither changes a cell nor depends on one
(`Compiler.failure_leaves_cells`).
-/

namespace SqlFragments

/-! ## The errors of each step -/

theorem Error.isGrammar_of_isRefusal {e : Error} (h : e.isRefusal = true) :
    e.isGrammar = false := by
  cases e with
  | driverUndefined | versionUndefined | driverUnset => cases h
  | placeholderMismatch | unsupported | invalid => rfl

/-- Whether the error says that there are not as many bindings as placeholders. -/
def Error.isMismatch : Error → Bool
  | placeholderMismatch _ _ _ => true
  | _ => false

theorem Error.isMismatch_of_isRefusal {e : Error} (h : e.isRefusal = true) :
    e.isMismatch = false := by
  cases e with
  | placeholderMismatch => cases h
  | driverUndefined | versionUndefined | driverUnset | unsupported | invalid => rfl

theorem Error.isMismatch_of_isGrammar {e : Error} (h : e.isGrammar = true) :
    e.isMismatch = false := by
  cases e with
  | placeholderMismatch => cases h
  | driverUndefined | versionUndefined | driverUnset | unsupported | invalid => rfl

/-- A table that has no text for a context fails with the error of a table. -/
theorem Grammar.isGrammar_of_resolveWith {g : Grammar} {driver : Option Driver}
    {version : Option Version} {e : Error} (h : (g.resolveWith driver version).1 = .error e) :
    e.isGrammar = true := by
  have picked {d : Driver} {v : Version} (failed : g.pick d v = .error e) :
      e.isGrammar = true := by
    unfold pick at failed
    split at failed
    · cases failed
      rfl
    · split at failed <;> cases failed
      rfl
  unfold resolveWith resolveAt at h
  split at h
  · cases h
    rfl
  · split at h
    · split at h
      · cases h
      · split at h <;> cases h
        next failed => exact picked failed
    · exact picked h

theorem Expression.isGrammar_of_resolve {tables : Tables} {ctx : Context} {x : Expression}
    {e : Error} (h : x.resolve (tables.lookup ctx) = .error e) : e.isGrammar = true := by
  induction x with
  | text id origin sql => cases h
  | grammar id origin table => exact Grammar.isGrammar_of_resolveWith h
  | layer id origin inner ih => exact ih h

theorem isGrammar_of_configured {tables : Tables} {ctx : Context} {es : List Expression}
    {e : Error} (h : configured (tables.lookup ctx) es = .error e) : e.isGrammar = true := by
  induction es with
  | nil => cases h
  | cons x es ih =>
    rw [configured] at h
    split at h
    · rcases bind_eq_error.1 h with failed | ⟨_, _, later⟩
      · exact Expression.isGrammar_of_resolve failed
      · rcases bind_eq_error.1 later with failed | ⟨_, _, last⟩
        · exact ih failed
        · cases last
    · exact ih h

/-- Work whose errors have a property that refusals have. -/
def failingWith (Q : Error → Prop) (refusal : ∀ e, e.isRefusal = true → Q e) :
    Simulation (Except Error) (Except Error) where
  rel x _ := ∀ e, x = .error e → Q e
  pure _ := nofun
  bind first next e failed := by
    rcases bind_eq_error.1 failed with failed | ⟨a, -, later⟩
    · exact first e failed
    · exact next a e later
  refuse e refused := by
    rintro _ ⟨⟩
    exact refusal e refused

/-- A statement that is not written lacks a text, or is refused. -/
theorem Form.error_of_write {d : Dialect} {ctx : Context} {tables : Tables} {f : Form} {e : Error}
    (h : f.write (.reading d ctx tables) = .error e) :
    e.isRefusal = true ∨ e.isGrammar = true := by
  have writers : (failingWith (fun e => e.isRefusal = true ∨ e.isGrammar = true)
      fun _ => .inl).Writers (.reading d ctx tables) (.reading d ctx tables) :=
    ⟨rfl, fun x e failed => .inr (Expression.isGrammar_of_resolve failed)⟩
  exact f.writers_write writers e h

namespace Record

theorem refusing_pick (row : Nat) (r : Record) (columns : List String) :
    Refusing (r.pick row columns) := by
  induction columns with
  | nil => exact .ok []
  | cons column columns ih =>
    unfold pick
    split
    · exact .error rfl
    · exact ih.bind fun _ => .ok _

theorem refusing_reorderAll (columns : List String) (row : Nat) (rows : List Record) :
    Refusing (reorderAll columns row rows) := by
  induction rows generalizing row with
  | nil => exact .ok []
  | cons r rows ih =>
    have first : Refusing (r.reorder row columns) := by
      unfold reorder
      split
      · exact (r.refusing_pick row columns).bind fun _ => .ok _
      · exact .error rfl
    exact first.bind fun _ => (ih (row + 1)).bind fun _ => .ok _

/-- Rows that do not fit together are refused. -/
theorem refusing_normalizeRows (rows : List Record) : Refusing (normalizeRows rows) := by
  cases rows with
  | nil => exact .ok []
  | cons r rows => exact refusing_reorderAll r.columns 0 (r :: rows)

end Record

theorem Writing.refusing_ofRequest (q : Query) (id : Identity) (r : Request) :
    Refusing (ofRequest q id r) := by
  cases r with
  | select | hasRows | aggregate | truncate | insertGetId | insertUsing | update | step | delete =>
    exact .ok _
  | insert rows | insertOrIgnore rows =>
    exact (Record.refusing_normalizeRows rows).bind fun _ => .ok _
  | upsert rows uniqueBy changed given =>
    rw [ofRequest]
    split
    · exact (Record.refusing_normalizeRows rows).bind fun _ => .ok _
    · exact (Record.refusing_normalizeRows rows).bind fun _ => .ok _

theorem Form.refusing_ofRequest (q : Query) (id : Identity) (r : Request) :
    Refusing (ofRequest q id r) := by
  cases r with
  | select | hasRows | aggregate => exact .ok _
  | insert | insertOrIgnore | insertGetId | insertUsing | update | step | upsert | delete
  | truncate => exact (Writing.refusing_ofRequest q id _).bind fun _ => .ok _

theorem Dialect.refusing_truncateQuery (d : Dialect) (q : Query) : Refusing (d.truncateQuery q) := by
  unfold truncateQuery
  split
  · exact .ok _
  · exact .error rfl
  · exact .error rfl

/-- All that can be wrong when the bindings are there is their number. -/
theorem Compiler.mismatch_of_finish {c : Compiler} {sql : String} {values : List Value} {e : Error}
    (h : c.finish sql values = .error e) :
    e = .placeholderMismatch (countPlaceholders c.dialect.escapesBackslash sql) values.length sql := by
  unfold finish at h
  dsimp only at h
  split at h
  · cases h
    rfl
  · split at h <;> cases h

/-- A finished statement has the values that it is finished with. -/
theorem Compiler.bindings_of_finish {c : Compiler} {sql : String} {values : List Value}
    {s : Statement} (finished : c.finish sql values = .ok s) : s.bindings = values := by
  unfold finish at finished
  dsimp only at finished
  split at finished
  · cases finished
  · split at finished <;> cases finished <;> rfl

/-- Where placeholders are not numbered, a finished statement has the text that was written. -/
theorem Compiler.sql_of_finish {c : Compiler} {sql : String} {values : List Value} {s : Statement}
    (question : c.settings.style = .question) (finished : c.finish sql values = .ok s) :
    s.sql = sql := by
  unfold finish at finished
  rw [question] at finished
  dsimp only at finished
  split at finished <;> cases finished
  rfl

/-! ## The ways in which a run ends -/

/-- What a run answers, the phases that it enters, and the cells that it leaves. -/
inductive Form.Ran (c : Compiler) (f : Form) (w : Workspace) :
    Except Error Statement → List Phase → Cells → Prop
  | faulty {fault : Fault} (faulted : f.queries.findSome? Query.fault = some fault) :
    Ran c f w (.error (.invalid fault)) [.configuring] w.cells
  | unresolved {e : Error} (faultless : f.queries.findSome? Query.fault = none)
    (failed : configured (w.tables.lookup c.context) (f.expressions c.dialect) = .error e) :
    Ran c f w (.error e) [.configuring] w.cells
  | unwritten {n : Nat} {e : Error} (faultless : f.queries.findSome? Query.fault = none)
    (resolved : configured (w.tables.lookup c.context) (f.expressions c.dialect) = .ok n)
    (failed : f.write (.reading c.dialect c.context w.tables) = .error e) :
    Ran c f w (.error e) [.configuring, .rendering] w.cells
  | mismatched {n : Nat} {sql : String} {e : Error}
    (faultless : f.queries.findSome? Query.fault = none)
    (resolved : configured (w.tables.lookup c.context) (f.expressions c.dialect) = .ok n)
    (written : f.write (.reading c.dialect c.context w.tables) = .ok sql)
    (failed : c.finish sql ((Binding.evaluateAll (f.bindings c.dialect)).run w.cells).1 =
      .error e) :
    Ran c f w (.error e) [.configuring, .rendering, .collecting]
      ((Binding.evaluateAll (f.bindings c.dialect)).run w.cells).2
  | done {n : Nat} {sql : String} {s : Statement}
    (faultless : f.queries.findSome? Query.fault = none)
    (resolved : configured (w.tables.lookup c.context) (f.expressions c.dialect) = .ok n)
    (written : f.write (.reading c.dialect c.context w.tables) = .ok sql)
    (finished : c.finish sql ((Binding.evaluateAll (f.bindings c.dialect)).run w.cells).1 =
      .ok s) :
    Ran c f w (.ok s) [.configuring, .rendering, .collecting, .done]
      ((Binding.evaluateAll (f.bindings c.dialect)).run w.cells).2

/-- The half of a run before the bindings are evaluated neither reads nor changes the cells. -/
theorem Compiler.draft_cells (c : Compiler) (q : Query) (others : List Query)
    (extra : List Expression) (write : Writer Resolution → Resolution String) (w : Workspace)
    (cells : Cells) :
    c.draft q others extra write { w with cells := cells } =
      ((c.draft q others extra write w).1,
        { (c.draft q others extra write w).2 with cells := cells }) := by
  unfold draft
  split
  · rfl
  · dsimp only [Workspace.resolving]
    rcases (configure c.context _).run.run w.tables with ⟨e | n, T⟩ <;> rfl

/-- **Every run** ends in one of these ways. -/
theorem Form.ran (c : Compiler) (f : Form) (w : Workspace) :
    f.Ran c w (f.run c w).1.answer (f.run c w).1.phases (f.run c w).2.cells := by
  have cells : (c.draft f.target f.others (f.extra c.dialect) f.write w).2.cells = w.cells :=
    congrArg (fun drafted => drafted.2.cells) (c.draft_cells _ _ _ f.write w w.cells)
  have outcome := c.draft_outcome f.target f.others (f.extra c.dialect) w
    (f.writers_write (Tables.recalling_writers c.dialect c.context w.tables))
  rw [run, Compiler.run_eq]
  rcases drafted : c.draft f.target f.others (f.extra c.dialect) f.write w with
    ⟨⟨answer, phases, q⟩, w'⟩
  rw [drafted] at cells outcome
  change w'.cells = w.cells at cells
  change (answer, phases) = Compiler.draftVerdict (f.queries.findSome? Query.fault)
    (configured (w.tables.lookup c.context) (f.expressions c.dialect)) _ at outcome
  cases faultless : f.queries.findSome? Query.fault with
  | some fault =>
    rw [faultless] at outcome
    cases outcome
    exact cells ▸ .faulty faultless
  | none =>
    cases resolved : configured (w.tables.lookup c.context) (f.expressions c.dialect) with
    | error e =>
      rw [faultless, resolved] at outcome
      cases outcome
      exact cells ▸ .unresolved faultless resolved
    | ok n =>
      rw [faultless, resolved] at outcome
      cases outcome
      cases written : f.write (.reading c.dialect c.context w.tables) with
      | error e => exact cells ▸ .unwritten faultless resolved written
      | ok sql =>
        rw [Compiler.settle_ok, cells]
        cases finished : c.finish sql ((Binding.evaluateAll (f.bindings c.dialect)).run w.cells).1 with
        | error e => exact .mismatched faultless resolved written finished
        | ok s => exact .done faultless resolved written finished

/-- A run with a fault fails with the first one. -/
theorem Form.answer_of_fault {c : Compiler} {f : Form} {w : Workspace} {fault : Fault}
    (faulted : f.queries.findSome? Query.fault = some fault) :
    (f.run c w).1.answer = .error (.invalid fault) := by
  have ran := f.ran c w
  generalize (f.run c w).1.answer = answer, (f.run c w).1.phases = phases,
    (f.run c w).2.cells = cells at ran ⊢
  cases ran with
  | faulty again =>
    cases again.symm.trans faulted
    rfl
  | unresolved faultless | unwritten faultless | mismatched faultless | done faultless =>
    cases faultless.symm.trans faulted

/-- A form that is written answers what is finished from it. -/
theorem Form.answer_of_written {c : Compiler} {f : Form} {w : Workspace} {n : Nat} {sql : String}
    (faultless : f.queries.findSome? Query.fault = none)
    (resolved : configured (w.tables.lookup c.context) (f.expressions c.dialect) = .ok n)
    (written : f.write (.reading c.dialect c.context w.tables) = .ok sql) :
    (f.run c w).1.answer =
      c.finish sql ((Binding.evaluateAll (f.bindings c.dialect)).run w.cells).1 := by
  have ran := f.ran c w
  generalize (f.run c w).1.answer = answer, (f.run c w).1.phases = phases,
    (f.run c w).2.cells = cells at ran ⊢
  cases ran with
  | faulty faulted => cases faultless.symm.trans faulted
  | unresolved _ failed => cases resolved.symm.trans failed
  | unwritten _ _ failed => cases written.symm.trans failed
  | mismatched _ _ again failed =>
    cases written.symm.trans again
    exact failed.symm
  | done _ _ again finished =>
    cases written.symm.trans again
    exact finished.symm

/-- A run that succeeds met no fault, and its statement was finished from what was written. -/
theorem Form.written_of_answer {c : Compiler} {f : Form} {w : Workspace} {s : Statement}
    (answered : (f.run c w).1.answer = .ok s) :
    f.queries.findSome? Query.fault = none ∧
      ∃ sql, f.write (.reading c.dialect c.context w.tables) = .ok sql ∧
        c.finish sql s.bindings = .ok s := by
  have ran := f.ran c w
  generalize (f.run c w).1.answer = answer, (f.run c w).1.phases = phases,
    (f.run c w).2.cells = cells at ran answered
  cases ran with
  | faulty | unresolved | unwritten | mismatched => cases answered
  | done faultless resolved written finished =>
    cases answered
    refine ⟨faultless, _, written, ?_⟩
    rwa [Compiler.bindings_of_finish finished]

/-- A run that fails before its bindings are evaluated neither reads nor changes the cells. -/
theorem Form.run_unevaluated {c : Compiler} {f : Form} {w : Workspace} {e : Error}
    (failed : (f.run c w).1.answer = .error e) (early : e.isMismatch = false) (cells : Cells) :
    f.run c { w with cells := cells } =
      ((f.run c w).1, { (f.run c w).2 with cells := cells }) := by
  rw [run, Compiler.run_eq] at failed
  rw [run, Compiler.run_eq, Compiler.run_eq, c.draft_cells]
  rcases drafted : c.draft f.target f.others (f.extra c.dialect) f.write w with
    ⟨⟨e' | sql, phases, q⟩, w'⟩
  · rfl
  · rw [drafted, c.settle_answer] at failed
    rw [Compiler.mismatch_of_finish failed] at early
    cases early

/-! ## The ways in which a compilation ends -/

/-- What a compilation answers, the phases that it enters, and the cells that it leaves. -/
inductive Compiler.Came (c : Compiler) (q : Query) (r : Request) (w : Workspace) :
    Except Error Compiled → List Phase → Cells → Prop
  | refused {e : Error} (refused : Form.ofRequest q w.next r = .error e) :
    Came c q r w (.error e) [] w.cells
  | blocked {e : Error} (emptying : Form.ofRequest q w.next r = .ok none)
    (failed : c.dialect.truncateQuery q = .error e) :
    Came c q r w (.error e) [.configuring, .rendering] w.cells
  | emptied {ss : List Statement} (emptying : Form.ofRequest q w.next r = .ok none)
    (made : c.dialect.truncateQuery q = .ok ss) :
    Came c q r w (.ok (.several ss)) [.configuring, .rendering, .collecting, .done] w.cells
  | ran {f : Form} {answer : Except Error Statement} {phases : List Phase} {cells : Cells}
    (made : Form.ofRequest q w.next r = .ok (some f))
    (ran : f.Ran c (r.charge w) answer phases cells) :
    Came c q r w (answer.map .one) phases cells

/-- The changes of phase of a compilation that succeeds. -/
def Phase.course : List (Phase × Phase) :=
  [(idle, configuring), (configuring, rendering), (rendering, collecting), (collecting, done)]

namespace Compiler

/-- **Every compilation** ends in one of these ways. -/
theorem came (c : Compiler) (q : Query) (r : Request) (w : Workspace) :
    c.Came q r w (c.compile q r w).1.answer (c.compile q r w).1.phases
      (c.compile q r w).2.cells := by
  rw [compile_eq]
  rcases made : Form.ofRequest q w.next r with e | - | f
  · exact .refused made
  · dsimp only [truncate]
    cases emptied : c.dialect.truncateQuery q with
    | error e => exact .blocked made emptied
    | ok ss => exact .emptied made emptied
  · exact .ran made (f.ran c (r.charge w))

variable {c : Compiler} {q : Query} {r : Request} {w : Workspace}

/-- The phases are entered in their order: all of them by a success, all but the last where the
number of bindings is wrong, and no more than two by any other failure, which leaves the cells. -/
theorem Came.orderly {answer : Except Error Compiled} {phases : List Phase} {cells : Cells} :
    c.Came q r w answer phases cells →
      List.zip (.idle :: phases) phases <+: Phase.course ∧
        match answer with
        | .ok _ => phases.length = 4
        | .error e =>
          if e.isMismatch then phases.length = 3 else phases.length ≤ 2 ∧ cells = w.cells := by
  intro came
  cases came with
  | refused refused =>
    have early := Error.isMismatch_of_isRefusal (Form.refusing_ofRequest q w.next r _ refused)
    simp [early]
  | blocked _ failed =>
    have early := Error.isMismatch_of_isRefusal (c.dialect.refusing_truncateQuery q _ failed)
    simp [early, Phase.course]
  | emptied => simp [Phase.course]
  | ran _ ran =>
    cases ran with
    | faulty => simp [Except.map, Error.isMismatch, Phase.course]
    | unresolved _ failed =>
      have early := Error.isMismatch_of_isGrammar (isGrammar_of_configured failed)
      simp [Except.map, early, Phase.course]
    | unwritten _ _ failed =>
      have early := (Form.error_of_write failed).elim Error.isMismatch_of_isRefusal
        Error.isMismatch_of_isGrammar
      simp [Except.map, early, Phase.course]
    | mismatched _ _ _ failed =>
      cases mismatch_of_finish failed
      simp [Except.map, Error.isMismatch, Phase.course]
    | done => simp [Except.map, Phase.course]

/-- A compilation that fails before its bindings are evaluated neither reads nor changes the
cells. -/
theorem compile_unevaluated {e : Error} (failed : (c.compile q r w).1.answer = .error e)
    (early : e.isMismatch = false) (cells : Cells) :
    c.compile q r { w with cells := cells } =
      ((c.compile q r w).1, { (c.compile q r w).2 with cells := cells }) := by
  rcases made : Form.ofRequest q w.next r with e' | - | f
  · simp only [compile_eq, made]
  · simp only [compile_eq, made]
  · have other := compile_of_form (c := c) (w := { w with cells := cells }) made
    rw [compile_of_form made] at failed
    rw [compile_of_form made, other]
    dsimp only
    rw [r.charge_with_cells, Form.run_unevaluated (map_eq_error.1 failed) early]

/-- **Failures leave the cells.** A compilation goes through its phases in their order. When it
succeeds it makes all changes of phase, when the bindings are not as many as the placeholders it
makes three, and when it fails for any other reason at most two; and then every cell is left as it
was, and what the cells hold has no part in the failure: no binding was evaluated. -/
theorem failure_leaves_cells (c : Compiler) (q : Query) (r : Request) (w : Workspace) :
    (c.compile q r w).1.transitions <+: Phase.course ∧
      match (c.compile q r w).1.answer with
      | .ok _ => (c.compile q r w).1.transitions.length = 4
      | .error (.placeholderMismatch _ _ _) => (c.compile q r w).1.transitions.length = 3
      | .error _ =>
        (c.compile q r w).1.transitions.length ≤ 2 ∧ (c.compile q r w).2.cells = w.cells ∧
          ∀ cells, c.compile q r { w with cells := cells } =
            ((c.compile q r w).1, { (c.compile q r w).2 with cells := cells }) := by
  obtain ⟨ordered, counted⟩ := (c.came q r w).orderly
  have length : (c.compile q r w).1.transitions.length = (c.compile q r w).1.phases.length := by
    simp [Run.transitions]
  refine ⟨ordered, ?_⟩
  rw [length]
  cases answered : (c.compile q r w).1.answer with
  | ok s =>
    rw [answered] at counted
    exact counted
  | error e =>
    rw [answered] at counted
    cases e with
    | placeholderMismatch => exact counted
    | driverUndefined | versionUndefined | driverUnset | unsupported | invalid =>
      exact ⟨counted.1, counted.2, compile_unevaluated answered rfl⟩

end Compiler

end SqlFragments
