import SqlFragments.Proofs.PageText
import SqlFragments.Proofs.Phases

/-!
# Pages of statements

A statement that reads a query shows all its limits and offsets, in every dialect. A statement that
updates or deletes rows shows the limit of the query's page, and where the dialect cannot it is
refused. But nothing asks for the offset of such a query, nor for the page of the whole where it is
united: with any others, the answer is the same (`Compiler.pages_shown_but_for_mutated_offsets`).
-/

namespace SqlFragments

/-- Whether the request reads the rows of its query. -/
def Request.reads : Request → Bool
  | select | hasRows | aggregate _ _ => true
  | _ => false

/-- What the request does to the rows of its query, if it changes them where they are. -/
def Request.mutation? : Request → Option Mutation
  | update _ | step _ _ _ _ => some .update
  | delete => some .delete
  | _ => none

/-- What the statement does to the rows of its query, if it changes them where they are. -/
def Writing.mutation? : Writing → Option Mutation
  | update _ _ | step _ _ _ _ _ _ => some .update
  | delete _ => some .delete
  | _ => none

/-- The text of a finished statement shows what the written text shows. -/
theorem Compiler.shows_of_finish {c : Compiler} {sql : String} {values : List Value} {s : Statement}
    {ms : List PageMark} (h : Shows ms sql) (finished : c.finish sql values = .ok s) :
    Shows ms s.sql := by
  unfold finish at finished
  dsimp only at finished
  split at finished
  · cases finished
  · split at finished <;> cases finished
    · exact h
    · exact h.numbered

/-! ## Statements that change rows -/

section Writers

variable {w : Writer (Except Error)} {text : String}

/-- An update or a deletion shows its limit. -/
theorem Writing.limit_shows {x : Writing} {mutation : Mutation} (h : x.mutation? = some mutation)
    (written : x.write w = .ok text) :
    Shows (x.target.slots.page.limitMarks w.dialect) text := by
  have updated {q : Query} {values : Record} (written : w.update q values = .ok text) :
      Shows (q.slots.page.limitMarks w.dialect) text := by
    simp only [Writer.update, bind_eq_ok] at written
    obtain ⟨_, checked, written⟩ := written
    split at written
    · cases written
    · simp only [bind_eq_ok, pure_eq_ok] at written
      obtain ⟨table, -, assignments, -, joins, -, tail, ended, rfl⟩ := written
      exact (Slots.limit_shows checked ended).preceded _
  cases x with
  | update | step => exact updated written
  | delete q =>
    simp only [write, Writer.delete, bind_eq_ok, pure_eq_ok] at written
    obtain ⟨_, checked, table, -, joins, -, tail, ended, rfl⟩ := written
    exact (Slots.limit_shows checked ended).preceded _
  | insert | insertOrIgnore | insertGetId | insertUsing | upsert => cases h

/-- An update or a deletion with a limit is refused where the dialect has none. -/
theorem Writing.refused_of_limit {x : Writing} {mutation : Mutation}
    (h : x.mutation? = some mutation) (limited : x.target.slots.page.limit.isSome = true)
    (lacking : w.dialect.allowsJoinedMutation = false) :
    x.write w = .error (w.dialect.lacks (.joined mutation)) ∨
      x.write w = .error (w.dialect.lacks (.paged mutation)) := by
  have checked := Slots.checkMutation_limited (w := w) mutation limited lacking
  have first {e : Error} (refused : w.checkMutation x.target.slots mutation = .error e) :
      x.write w = .error e := by
    cases x with
    | update | step | delete =>
      cases h
      exact bind_eq_error.2 (.inl refused)
    | insert | insertOrIgnore | insertGetId | insertUsing | upsert => cases h
  exact checked.imp first first

end Writers

/-- A request that updates or deletes rows comes down to a statement that does. -/
theorem Form.of_mutation (q : Query) (id : Identity) {r : Request} {mutation : Mutation}
    (h : r.mutation? = some mutation) :
    ∃ x : Writing, ofRequest q id r = .ok (some (.writing x)) ∧ x.mutation? = some mutation ∧
      x.target = q ∧ x.others = [] := by
  cases r with
  | update | step | delete => exact ⟨_, rfl, h, rfl, rfl⟩
  | select | hasRows | aggregate | insert | insertOrIgnore | insertGetId | insertUsing | upsert
  | truncate => cases h

/-- A statement that cannot be written is not answered, for this reason or for an earlier one. -/
theorem Form.answer_of_unwritten {c : Compiler} {f : Form} {w : Workspace} {e : Error}
    (failed : f.write (.reading c.dialect c.context w.tables) = .error e) :
    ∃ e', (f.run c w).1.answer = .error e' ∧
      (e' = e ∨ (∃ fault, f.queries.findSome? Query.fault = some fault ∧ e' = .invalid fault) ∨
        e'.isGrammar = true) := by
  have ran := f.ran c w
  generalize (f.run c w).1.answer = answer, (f.run c w).1.phases = phases,
    (f.run c w).2.cells = cells at ran ⊢
  cases ran with
  | faulty faulted => exact ⟨_, rfl, .inr (.inl ⟨_, faulted, rfl⟩)⟩
  | unresolved _ unresolved => exact ⟨_, rfl, .inr (.inr (isGrammar_of_configured unresolved))⟩
  | unwritten _ _ again =>
    cases again.symm.trans failed
    exact ⟨_, rfl, .inl rfl⟩
  | mismatched _ _ written | done _ _ written => cases written.symm.trans failed

/-! ## What an update or a deletion does not read -/

/-- The query with another offset of its page, and another page of the whole. -/
def Query.repaged (q : Query) (offset limitOfWhole offsetOfWhole : Option UInt64) : Query :=
  { q with slots := { q.slots with
    page := { q.slots.page with offset := offset }
    combined := { q.slots.combined with limit := limitOfWhole, offset := offsetOfWhole } } }

theorem Query.expressions_repaged (q : Query) (offset limitOfWhole offsetOfWhole : Option UInt64) :
    (q.repaged offset limitOfWhole offsetOfWhole).expressions = q.expressions := by
  obtain ⟨slots, us, index, fault⟩ := q
  cases index <;> rfl

/-- What a run answers depends on its query only through the fault and the expressions. -/
theorem Compiler.run_answer_congr (c : Compiler) {q q' : Query} (others : List Query)
    (extra : List Expression) (write : Writer Resolution → Resolution String)
    (bindings : List Binding) (w : Workspace) (fault : q'.fault = q.fault)
    (expressions : q'.expressions = q.expressions) :
    (c.run q' others extra write bindings w).1.answer =
      (c.run q others extra write bindings w).1.answer := by
  have drafted : (c.draft q' others extra write w).1.answer =
        (c.draft q others extra write w).1.answer ∧
      (c.draft q' others extra write w).2 = (c.draft q others extra write w).2 := by
    unfold draft
    simp only [List.findSome?_cons, List.flatMap_cons, fault, expressions]
    split
    · exact ⟨rfl, rfl⟩
    · split <;> exact ⟨rfl, rfl⟩
  rw [run_eq, run_eq, settle_answer, settle_answer, drafted.1, drafted.2]

namespace Compiler

/-- An update or a deletion reads neither the offset of its query nor the page of the whole. -/
theorem answer_repaged (c : Compiler) (q : Query) {r : Request} {mutation : Mutation}
    (w : Workspace) (h : r.mutation? = some mutation)
    (offset limitOfWhole offsetOfWhole : Option UInt64) :
    (c.compile (q.repaged offset limitOfWhole offsetOfWhole) r w).1.answer =
      (c.compile q r w).1.answer := by
  have expressions := q.expressions_repaged offset limitOfWhole offsetOfWhole
  -- What is written and what is collected is the same before and after.
  cases r with
  | update | step | delete =>
    rw [answer_of_form rfl, answer_of_form rfl]
    exact congrArg _ (c.run_answer_congr [] _ _ _ _ rfl expressions)
  | select | hasRows | aggregate | insert | insertOrIgnore | insertGetId | insertUsing | upsert
  | truncate => cases h

/-- A statement shows what is shown by whatever is written for its form. -/
theorem shows_of_answer {c : Compiler} {q : Query} {r : Request} {w : Workspace} {f : Form}
    {ms : List PageMark} {s : Statement} (made : Form.ofRequest q w.next r = .ok (some f))
    (shown : ∀ sql, f.write (.reading c.dialect c.context w.tables) = .ok sql → Shows ms sql)
    (answered : (c.compile q r w).1.answer = .ok (.one s)) : Shows ms s.sql := by
  rw [answer_of_form made] at answered
  obtain ⟨_, answered, ⟨⟩⟩ := map_eq_ok.1 answered
  obtain ⟨-, sql, written, finished⟩ := Form.written_of_answer answered
  rw [r.charge_tables] at written
  exact shows_of_finish (shown sql written) finished

/-- **Pages are shown, but for what updates and deletions leave out.** A statement that reads a
built query, an aggregate of it, or whether it has rows, shows every limit and offset of the query,
of the queries it is united with and of the whole, in every dialect and however placeholders are
written. A statement that updates or deletes shows the limit of the query; where the dialect has
none for it, there is no statement, and the error says so unless there was another one before. The
offset of the query and the page of the whole are passed over in all dialects: with any others, an
update or a deletion is answered as it is with these. -/
theorem pages_shown_but_for_mutated_offsets (c : Compiler) {q : Query} (built : q.Built)
    (r : Request) (w : Workspace) :
    (r.reads = true → ∀ s, (c.compile q r w).1.answer = .ok (.one s) →
      Shows ((r.target q).pageMarks c.dialect) s.sql) ∧
    ∀ mutation, r.mutation? = some mutation →
      (∀ s, (c.compile q r w).1.answer = .ok (.one s) →
        Shows (q.slots.page.limitMarks c.dialect) s.sql) ∧
      (q.slots.page.limit.isSome = true → c.dialect.allowsJoinedMutation = false →
        ∃ e, (c.compile q r w).1.answer = .error e ∧
          (e = c.dialect.lacks (.joined mutation) ∨ e = c.dialect.lacks (.paged mutation) ∨
            (∃ fault, q.fault = some fault ∧ e = .invalid fault) ∨ e.isGrammar = true)) ∧
      ∀ offset limitOfWhole offsetOfWhole,
        (c.compile (q.repaged offset limitOfWhole offsetOfWhole) r w).1.answer =
          (c.compile q r w).1.answer := by
  refine ⟨fun reads s answered => ?_, fun mutation changes => ⟨fun s answered => ?_,
    fun limited lacking => ?_, fun offset limitOfWhole offsetOfWhole =>
      c.answer_repaged q w changes offset limitOfWhole offsetOfWhole⟩⟩
  · cases r with
    | select =>
      exact shows_of_answer (f := .select q) rfl (fun _ => q.shows built.wellFormed) answered
    | hasRows =>
      exact shows_of_answer (f := .hasRows q) rfl (fun _ => q.hasRows_shows built.wellFormed)
        answered
    | aggregate function columns =>
      have target := built.withAggregate ⟨function, columns.map Ident.name⟩
      exact shows_of_answer (f := .select (q.withAggregate ⟨function, columns.map Ident.name⟩)) rfl
        (fun _ => Query.shows _ target.wellFormed) answered
    | insert | insertOrIgnore | insertGetId | insertUsing | update | step | upsert | delete
    | truncate => cases reads
  · obtain ⟨x, made, changes, rfl, -⟩ := Form.of_mutation q w.next changes
    exact shows_of_answer made (fun _ => x.limit_shows changes) answered
  · obtain ⟨x, made, changes, rfl, alone⟩ := Form.of_mutation q w.next changes
    have fault : (Form.writing x).queries.findSome? Query.fault = x.target.fault := by
      rw [Form.queries, Form.target, Form.others, alone, List.findSome?_singleton]
    have unwritten {e : Error}
        (failed : x.write (.reading c.dialect c.context (r.charge w).tables) = .error e) :
        ∃ e', (c.compile x.target r w).1.answer = .error e' ∧
          (e' = e ∨ (∃ fault, x.target.fault = some fault ∧ e' = .invalid fault) ∨
            e'.isGrammar = true) := by
      obtain ⟨e', answered, reason⟩ := Form.answer_of_unwritten (f := .writing x) failed
      rw [answer_of_form made, answered]
      rw [fault] at reason
      exact ⟨e', rfl, reason⟩
    rcases x.refused_of_limit (w := .reading c.dialect c.context (r.charge w).tables) changes
      limited lacking with failed | failed
    · obtain ⟨e, answered, same | earlier⟩ := unwritten failed
      · exact ⟨e, answered, .inl same⟩
      · exact ⟨e, answered, .inr (.inr earlier)⟩
    · obtain ⟨e, answered, reason⟩ := unwritten failed
      exact ⟨e, answered, .inr reason⟩

/-- Two pages of rows united, and a page of the whole. -/
def pagedUnion : Query :=
  (((Query.onTable (.name "t")).limit 5).union true ((Query.onTable (.name "u")).offset 2)).limit 7

/-- The rows of a table but for the first ones. -/
def laterRows : Query := (Query.onTable (.name "t")).offset 5

/-- MySQL is given all pages, where an offset needs a limit before it. Postgres deletes the first
rows as well. -/
theorem pagedUnion_shown_but_laterRows_lost :
    let mysql : Compiler := ⟨{}, .mysql, {}⟩
    let postgres : Compiler := ⟨{}, .postgres, {}⟩
    let sql := "(select * from `t` limit 5) union all " ++
      "(select * from `u` limit 18446744073709551615 offset 2) limit 7"
    (mysql.compile pagedUnion .select {}).1.answer = .ok (.one ⟨sql, []⟩) ∧
      Shows [⟨.limit, 5⟩, ⟨.offset, 2⟩, ⟨.limit, 7⟩] sql ∧
      (postgres.compile laterRows .delete {}).1.answer = .ok (.one ⟨"delete from \"t\"", []⟩) := by
  intro mysql postgres sql
  have answered : (mysql.compile pagedUnion .select {}).1.answer = .ok (.one ⟨sql, []⟩) := by
    decide +kernel
  have table (name : String) : (Query.onTable (.name name)).Built := Query.Built.empty.fromTable _
  have built : pagedUnion.Built := (((table "t").limit 5).union true ((table "u").offset 2)).limit 7
  have shown := (mysql.pages_shown_but_for_mutated_offsets built .select {}).1 rfl _ answered
  have marks : pagedUnion.pageMarks .mysql = [⟨.limit, 5⟩, ⟨.offset, 2⟩, ⟨.limit, 7⟩] := by
    decide +kernel
  -- But for its offset the query is the whole table.
  have later : laterRows = (Query.onTable (.name "t")).repaged (some 5) none none := rfl
  have same := ((postgres.pages_shown_but_for_mutated_offsets (table "t") .delete {}).2 .delete
    rfl).2.2 (some 5) none none
  have whole : (postgres.compile (Query.onTable (.name "t")) .delete {}).1.answer =
      .ok (.one ⟨"delete from \"t\"", []⟩) := by
    decide +kernel
  refine ⟨answered, ?_, ?_⟩
  · rw [← marks]
    exact shown
  · rw [later, same, whole]

end Compiler

end SqlFragments
