import SqlFragments.Proofs.Evaluations

/-!
# Compiled statements and their bindings

What a compiler comes to from a request that changes rows is prepared, if the query that it reads is
built (`Writing.prepared_of_request`). So where the parts of such a statement are safe and its
predicates aligned, the text that is written has a placeholder for each binding that is collected:
the compilation never finds their numbers to differ (`Form.not_mismatch_of_fitting`), and its answer
has the values of the bindings in the order of their placeholders (`Writing.text_aligned`).
-/

namespace SqlFragments

namespace Form

/-- A request that changes rows comes down to its statement. -/
theorem of_writing {q : Query} {id : Identity} {r : Request} {x : Writing}
    (made : Writing.ofRequest q id r = .ok (some x)) : ofRequest q id r = .ok (some (.writing x)) := by
  cases r with
  | select | hasRows | aggregate => cases made
  | insert | insertOrIgnore | insertGetId | insertUsing | update | step | upsert | delete
  | truncate =>
    simp only [ofRequest, made]
    rfl

/-- Where every text that is written has a placeholder for each binding, a run fails for another
reason, if at all. -/
theorem not_mismatch_of_fitting {c : Compiler} {f : Form} {w : Workspace}
    (fitting : ∀ sql, f.write (.reading c.dialect c.context w.tables) = .ok sql →
      countPlaceholders c.dialect.escapesBackslash sql = (f.bindings c.dialect).length) {e : Error}
    (failed : (f.run c w).1.answer = .error e) : e.isMismatch = false := by
  have ran := f.ran c w
  generalize (f.run c w).1.answer = answer, (f.run c w).1.phases = phases,
    (f.run c w).2.cells = cells at ran failed
  cases ran with
  | faulty =>
    cases failed
    rfl
  | unresolved _ unresolved =>
    cases failed
    exact Error.isMismatch_of_isGrammar (isGrammar_of_configured unresolved)
  | unwritten _ _ unwritten =>
    cases failed
    exact (error_of_write unwritten).elim Error.isMismatch_of_isRefusal Error.isMismatch_of_isGrammar
  | @mismatched _ sql _ _ _ written mismatched =>
    have values := Binding.length_evaluateAll (f.bindings c.dialect) w.cells
    simp [Compiler.finish, fitting sql written, values] at mismatched
    cases style : c.settings.style <;> simp [style] at mismatched
  | done => cases failed

end Form

namespace Writing

/-- Whatever a compiler comes to from a request is prepared, if a query to read is built. -/
theorem prepared_of_request {q : Query} {id : Identity} {r : Request} {x : Writing}
    (made : ofRequest q id r = .ok (some x)) (built : ∀ p ∈ r.sources, p.Built) : x.Prepared := by
  cases r with
  | select | hasRows | aggregate | truncate => cases made
  | insert rows | insertOrIgnore rows =>
    simp only [ofRequest, bind_eq_ok, pure_eq_ok, Option.some.injEq] at made
    obtain ⟨out, normal, rfl⟩ := made
    exact ⟨rows, normal⟩
  | insertUsing columns source =>
    cases made
    exact built source List.mem_cons_self
  | upsert rows uniqueBy changed given =>
    simp only [ofRequest] at made
    split at made
    · simp only [bind_eq_ok, pure_eq_ok, Option.some.injEq] at made
      obtain ⟨out, normal, rfl⟩ := made
      exact ⟨rows, normal⟩
    · simp only [bind_eq_ok, pure_eq_ok, Option.some.injEq] at made
      obtain ⟨out, normal, rfl⟩ := made
      exact ⟨rows, normal⟩
  | insertGetId | update | step | delete =>
    cases made
    trivial

/-- The text has a placeholder for each binding that is collected for the statement, and is spelled
by sources that have these bindings in order. -/
def Fits (x : Writing) (w : Writer (Except Error)) (text : String) : Prop :=
  countPlaceholders w.dialect.escapesBackslash text = (x.bindings w.dialect).length ∧
    Aligned w text (sources (x.parts w.dialect)) (x.bindings w.dialect)

/-- **Writing statements are aligned.** Let the parts around the predicates of a statement be safe
and let each of its predicates be aligned on its own. If the statement is prepared its text, if there
is one, has one placeholder for each binding that is collected for it, and is spelled by sources that
have these bindings in order. A request that comes down to the statement is then never refused for
the number of its bindings, and what it answers is finished from such a text and from the values of
these bindings. -/
theorem text_aligned {c : Compiler} {ws : Workspace} {x : Writing}
    (safe : ∀ part ∈ x.frame, part.Safe (.reading c.dialect c.context ws.tables))
    (alone : ∀ p ∈ x.predicates, p.AlignedAlone (.reading c.dialect c.context ws.tables)) :
    let w := Writer.reading c.dialect c.context ws.tables
    (x.Prepared → ∀ text,
      ((x.write (Writer.remembering c.dialect c.context)).run.run ws.tables).1 = .ok text →
        x.Fits w text) ∧
    ∀ q r, ofRequest q ws.next r = .ok (some x) → (∀ p ∈ r.sources, p.Built) →
      (∀ e, (c.compile q r ws).1.answer = .error e → e.isMismatch = false) ∧
      ∀ s, (c.compile q r ws).1.answer = .ok (.one s) → ∃ text, x.write w = .ok text ∧
        x.Fits w text ∧ c.finish text s.bindings = .ok s ∧
          s.bindings = ((Binding.evaluateAll (x.bindings c.dialect)).run ws.cells).1 := by
  intro w
  have fits (prepared : x.Prepared) {text : String} (written : x.write w = .ok text) :
      x.Fits w text :=
    have whole := aligned prepared safe alone written
    ⟨whole.count_eq, whole⟩
  refine ⟨fun prepared text written => ?_, fun q r made built => ?_⟩
  · rw [Tables.recalled (writers_write (Tables.recalling_writers c.dialect c.context ws.tables) x)]
      at written
    exact fits prepared written
  · have prepared := prepared_of_request made built
    rw [Compiler.answer_of_form (Form.of_writing made)]
    have fitting : ∀ sql, (Form.writing x).write
        (.reading c.dialect c.context (r.charge ws).tables) = .ok sql →
        countPlaceholders c.dialect.escapesBackslash sql =
          ((Form.writing x).bindings c.dialect).length := by
      rw [r.charge_tables]
      exact fun sql written => (fits prepared written).1
    refine ⟨fun e failed => Form.not_mismatch_of_fitting fitting (map_eq_error.1 failed),
      fun s answered => ?_⟩
    obtain ⟨_, answered, ⟨⟩⟩ := map_eq_ok.1 answered
    obtain ⟨-, text, written, finished⟩ := Form.written_of_answer answered
    rw [r.charge_tables] at written
    have evaluated := Form.bindings_of_answer answered
    rw [r.charge_cells] at evaluated
    exact ⟨text, written, fits prepared written, finished, evaluated⟩

/-- A deletion through a join from a table that is a fragment with a binding. -/
def deletionThroughJoin : Writing :=
  let table : Ident := .raw ⟨.text 0 (.native [.literal (.int 1)]) "t_? t", []⟩
  let chosen : Predicate := .between .and (.name "t.a") false (.bound (.literal (.int 2)))
    (.inline (.text 1 (.native [.literal (.int 3)]) "? + 1"))
  let q : Query := ({} : Query).fromTable table
  let q := q.join ⟨.inner, .name "u?", [.columns .and (.name "t.id") "=" (.name "u?.id")]⟩
  .delete (((q.addWhere chosen).orderBy (.column (.name "t.b") true)).limit 3)

/-- The deletion evaluates the bindings of its table for both of the places where it is written. -/
theorem text_of_deletionThroughJoin_aligned :
    let mysql : Compiler := ⟨{}, .mysql, {}⟩
    let w := Writer.reading .mysql {} {}
    let x := deletionThroughJoin
    let s : Statement := ⟨"delete t_? t from t_? t inner join `u?` on `t`.`id` = `u?`.`id` " ++
      "where `t`.`a` between ? and ? + 1 order by `t`.`b` desc limit 3", [1, 1, 2, 3].map .int⟩
    (∀ part ∈ x.frame, part.Safe w) ∧ (∀ p ∈ x.predicates, p.AlignedAlone w) ∧
      (x.Prepared ∧ ((x.write (Writer.remembering .mysql {})).run.run {}).1 = .ok s.sql ∧
        x.Fits w s.sql) ∧
      ofRequest x.target 0 .delete = .ok (some x) ∧
        (mysql.compile x.target .delete {}).1.answer = .ok (.one s) ∧
        ∃ text, x.Fits w text ∧ mysql.finish text s.bindings = .ok s := by
  intro mysql w x s
  have safe : ∀ part ∈ x.frame, part.Safe w := by
    decide +kernel
  have alone : ∀ p ∈ x.predicates, p.AlignedAlone w := by
    intro p hp
    rcases List.mem_pair.1 hp with rfl | rfl
    · exact Predicate.aligned_of_safe (by decide +kernel) rfl
    · exact Predicate.aligned_of_safe (by decide +kernel) rfl
  have written : ((x.write (Writer.remembering .mysql {})).run.run {}).1 = .ok s.sql := by
    decide +kernel
  have answered : (mysql.compile x.target .delete {}).1.answer = .ok (.one s) := by
    decide +kernel
  obtain ⟨fits, compiled⟩ := @text_aligned mysql {} x safe alone
  obtain ⟨text, -, fitting, finished, -⟩ :=
    (compiled x.target .delete rfl (List.forall_mem_nil _)).2 s answered
  exact ⟨safe, alone, ⟨trivial, written, fits trivial s.sql written⟩, rfl, answered, text, fitting,
    finished⟩

end Writing

end SqlFragments
