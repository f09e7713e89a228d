import SqlFragments.Proofs.Phases
import SqlFragments.Proofs.StatementPhrases

/-!
# Lists behind keywords

Behind a keyword that needs a list an item is written, with three exceptions. A join that is not a
cross join is written with `on` though it has no conditions; leaving out rows that agree on no columns
is written with `distinct on ()`; and an insertion that changes rows that are there already is written
with `on conflict ()` where no column is unique. All other lists that could be empty are left out with
their keyword, replaced by something else, or refused.

A form is `Listed` if it has none of the three, and `Form.filled_iff` says that its phrase is filled
exactly then.
-/

namespace SqlFragments

namespace Form

/-- The slots whose joins a statement writes. -/
def levels : Form → List Slots
  | select q | hasRows q => q.levels
  | writing (.insertUsing _ _ source) => source.levels
  | writing (.update q _) | writing (.step q _ _ _ _ _) | writing (.delete q) => [q.slots]
  | writing (.insert _ _) | writing (.insertOrIgnore _ _) | writing (.insertGetId _ _ _)
  | writing (.upsert _ _ _ _ _) => []

/-- How repeated rows are left out, where a statement writes that in front of columns. -/
def distincts : Form → List Distinct
  | select q | hasRows q => q.distincts
  | writing (.insertUsing _ _ source) => source.distincts
  | writing _ => []

/-- The columns that a statement calls unique. MySQL knows them from the table. -/
def uniques (d : Dialect) : Form → List (List String)
  | writing (.upsert _ _ uniqueBy _ _) => if d = .mysql then [] else [uniqueBy]
  | _ => []

/-- Joins have their conditions, and columns are given where rows have to agree on some or to be unique
by some. -/
structure Listed (d : Dialect) (f : Form) : Prop where
  joined : ∀ s ∈ f.levels, s.Joined
  distinct : .on [] ∉ f.distincts
  unique : [] ∉ f.uniques d

end Form

/-! ## Filled phrases -/

theorem Phrase.filled_names (columns : List String) : ∀ p ∈ names columns, p.Filled :=
  filled_commas_map fun _ _ => trivial

@[simp] theorem Phrase.names_eq_nil {columns : List String} : names columns = [] ↔ columns = [] := by
  simp [names]

@[simp] theorem Phrase.filled_assigned {column : String} {value : Phrase} :
    (assigned column value).Filled ↔ value.Filled := by
  simp [assigned]

theorem Record.filled_tuple (r : Record) : r.tuple.Filled := by
  have values : ∀ p ∈ Phrase.commas (r.entries.map fun entry => entry.2.phrase), p.Filled :=
    Phrase.filled_commas_map fun entry _ => entry.2.filled_phrase
  simpa [tuple] using values

namespace Dialect

variable (d : Dialect)

theorem filled_json (column : String) (path : List String) (value : Operand) :
    (d.jsonPhrase column path value.phrase).Filled := by
  have keys {mark : Phrase} (between : mark.Filled) :
      (Phrase.joined (Phrase.apart mark (path.map Phrase.jsonKey))).Filled := by
    have each : ∀ p ∈ path.map Phrase.jsonKey, p.Filled :=
      List.forall_mem_map.2 fun key _ => by simp [Phrase.jsonKey]
    exact Phrase.filled_joined.2 (Phrase.filled_apart between each)
  have points := keys (Phrase.filled_word "." (Listless.of_check _ Listless.checked))
  have commas := keys (Phrase.filled_word "," (Listless.of_check _ Listless.checked))
  cases d <;> simp [jsonPhrase, points, commas, -Phrase.filled_joined]

theorem filled_assignment (column : String) (value : Operand) :
    (d.assignmentPhrase column value).Filled := by
  unfold assignmentPhrase
  split
  · exact d.filled_json _ _ value
  · simp

theorem filled_sets (changed : List String) (given : Record) :
    ∀ p ∈ d.setPhrases changed given, p.Filled := by
  refine Phrase.filled_commas fun p member => ?_
  rcases List.mem_append.1 member with member | member
  · obtain ⟨column, -, rfl⟩ := List.mem_map.1 member
    cases d <;> simp [insertedPhrase]
  · obtain ⟨entry, -, rfl⟩ := List.mem_map.1 member
    simp

theorem sets_eq_nil {changed : List String} {given : Record} :
    d.setPhrases changed given = [] ↔ changed = [] ∧ given.entries = [] := by
  simp [setPhrases]

@[simp] theorem filled_exists {p : Phrase} : (d.existsPhrase p).Filled ↔ p.Filled := by
  cases d <;> simp [existsPhrase]

end Dialect

namespace Query

variable (d : Dialect) (q : Query)

@[simp] theorem filled_table : q.tablePhrase.Filled := by
  unfold tablePhrase
  cases q.slots.table with
  | none => trivial
  | some t => exact t.filled_phrase

/-- Everything in an insertion is written for a row of defaults too. -/
theorem filled_insert {verb : Phrase} (h : verb.Filled) (rows : List Record) :
    (q.insertPhrase d verb rows).Filled := by
  unfold insertPhrase
  cases rows with
  | nil => cases d <;> simp [h]
  | cons first rest =>
    have names := Phrase.filled_joined.2 (Phrase.filled_names first.columns)
    have tuples : (Phrase.joined (Phrase.commas ((first :: rest).map Record.tuple))).Filled :=
      Phrase.filled_joined.2 (Phrase.filled_commas_map fun r _ => r.filled_tuple)
    dsimp only
    split
    · cases d <;> simp [h]
    · exact ⟨⟨⟨⟨⟨⟨h, trivial⟩, q.filled_table⟩, trivial⟩, names⟩, trivial⟩, tuples⟩

theorem filled_ignore (rows : List Record) : (q.ignorePhrase d rows).Filled := by
  cases d <;> simp [ignorePhrase, filled_insert]

theorem filled_report (row : Record) (sequence : String) : (q.reportPhrase d row sequence).Filled := by
  cases d <;> simp [reportPhrase, filled_insert]

/-- An insertion that changes something needs unique columns, but on MySQL. -/
theorem filled_upsert_iff {changed : List String} {given : Record}
    (some : ¬(changed = [] ∧ given.entries = [])) (supported : d ≠ .sqlServer) (rows : List Record)
    (uniqueBy : List String) :
    (q.upsertPhrase d rows uniqueBy changed given).Filled ↔ d = .mysql ∨ uniqueBy ≠ [] := by
  have sets := Phrase.allFilled_iff.2 (d.filled_sets changed given)
  have some' : d.setPhrases changed given ≠ [] := mt d.sets_eq_nil.1 some
  have names := Phrase.allFilled_iff.2 (Phrase.filled_names uniqueBy)
  cases d with
  | sqlServer => exact absurd rfl supported
  | mysql | postgres | sqlite =>
    simp only [upsertPhrase, Phrase.filled_append, Phrase.filled_list, Phrase.filled_word,
      filled_insert, some', sets, names, ne_eq, Phrase.names_eq_nil, not_false_eq_true, true_and,
      and_true, reduceCtorEq, false_or, true_or]

theorem filled_tail : (q.tailPhrase d).Filled := by
  refine ⟨⟨Predicate.filled_clause d .filter _, Order.filled_clause _⟩, ?_⟩
  split <;> simp

@[simp] theorem filled_joins : (q.joinsPhrase d).Filled ↔ q.slots.Joined := q.slots.filled_joins d

theorem filled_update_iff {values : Record} (some : values.entries ≠ []) :
    (q.updatePhrase d values).Filled ↔ q.slots.Joined := by
  have assignments : Phrase.AllFilled (Phrase.commas
      (values.entries.map fun entry => d.assignmentPhrase entry.1 entry.2)) :=
    Phrase.allFilled_iff.2
      (Phrase.filled_commas_map fun entry _ => d.filled_assignment entry.1 entry.2)
  simp only [updatePhrase, Phrase.filled_append, Phrase.filled_list, Phrase.filled_word,
    Phrase.commas_eq_nil, List.map_eq_nil_iff, filled_table, filled_joins, filled_tail, assignments,
    some, ne_eq, not_false_eq_true, true_and, and_true]

theorem filled_delete_iff : (q.deletePhrase d).Filled ↔ q.slots.Joined := by
  have target : (if q.slots.joins.isEmpty then .word "" else q.targetPhrase ++ .word " ").Filled := by
    split
    · trivial
    · refine ⟨?_, trivial⟩
      unfold targetPhrase
      split <;> simp
  simp only [deletePhrase, Phrase.filled_append, Phrase.filled_word, filled_table, filled_joins,
    filled_tail, target, true_and, and_true]

theorem filled_using_iff (w : Writer (Except Error)) (columns : List String) (source : Query) :
    (q.usingPhrase w columns source).Filled ↔ (source.phrase w).Filled := by
  have names := Phrase.filled_joined.2 (Phrase.filled_names columns)
  unfold usingPhrase
  split <;>
    simp only [Phrase.filled_append, Phrase.filled_word, filled_table, names, and_true, true_and]

theorem filled_truncate : ∀ p ∈ q.truncatePhrases d, p.Filled := by
  cases d <;> simp [truncatePhrases]

end Query

/-! ## Statements -/

section Statements

variable {w : Writer (Except Error)} {text : String}

/-- An update that is written has assignments. -/
theorem Query.entries_of_update {q : Query} {values : Record} (h : w.update q values = .ok text) :
    values.entries ≠ [] := by
  simp only [Writer.update, bind_eq_ok] at h
  obtain ⟨-, -, h⟩ := h
  split at h
  · cases h
  · next some => simpa [Record.isEmpty] using some

/-- Only some dialects write an insertion that changes rows that are there already. -/
theorem Query.supported_of_upsert {q : Query} {rows : List Record} {uniqueBy changed : List String}
    {given : Record} (h : w.upsert q rows uniqueBy changed given = .ok text) :
    w.dialect ≠ .sqlServer := by
  simp only [Writer.upsert, bind_eq_ok, lift_eq_ok] at h
  obtain ⟨_, -, _, -, h⟩ := h
  intro server
  rw [server] at h
  cases h

/-- A request with nothing to change does not ask for changes. -/
theorem Form.changes_of_request {q p : Query} {id : Identity} {r : Request} {rows : List Record}
    {uniqueBy changed : List String} {given : Record}
    (made : ofRequest q id r = .ok (some (.writing (.upsert p rows uniqueBy changed given)))) :
    ¬(changed = [] ∧ given.entries = []) := by
  cases r with
  | select | hasRows | aggregate | insertGetId | insertUsing | update | step | delete | truncate =>
    cases made
  | insert rows | insertOrIgnore rows =>
    simp only [ofRequest, Writing.ofRequest, bind_eq_ok, pure_eq_ok] at made
    obtain ⟨_, ⟨_, -, rfl⟩, made⟩ := made
    cases made
  | upsert =>
    simp only [ofRequest, Writing.ofRequest, bind_eq_ok, pure_eq_ok] at made
    obtain ⟨x, made, mapped⟩ := made
    split at made
    · simp only [bind_eq_ok, pure_eq_ok] at made
      obtain ⟨_, -, rfl⟩ := made
      cases mapped
    · next some =>
      simp only [bind_eq_ok, pure_eq_ok] at made
      obtain ⟨_, -, rfl⟩ := made
      cases mapped
      simpa [Record.isEmpty] using some

/-- **Filled statements.** The phrase of a statement that is written is filled exactly if joins have
their conditions, and columns are given where rows have to agree on some or to be unique by some. -/
theorem Form.filled_iff {q : Query} {id : Identity} {r : Request} {f : Form}
    (made : ofRequest q id r = .ok (some f)) (written : f.write w = .ok text) :
    (f.phrase w).Filled ↔ f.Listed w.dialect := by
  have listed : f.Listed w.dialect ↔
      (∀ s ∈ f.levels, s.Joined) ∧ .on [] ∉ f.distincts ∧ [] ∉ f.uniques w.dialect :=
    ⟨fun h => ⟨h.joined, h.distinct, h.unique⟩, fun h => ⟨h.1, h.2.1, h.2.2⟩⟩
  rw [listed]
  cases f with
  | select q => simpa [phrase, levels, distincts, uniques] using q.filled_iff w
  | hasRows q => simpa [phrase, levels, distincts, uniques] using q.filled_iff w
  | writing x =>
    cases x with
    | insert q rows =>
      simpa [phrase, Writing.phrase, levels, distincts, uniques] using
        q.filled_insert w.dialect (Phrase.filled_word _ _) rows
    | insertOrIgnore q rows =>
      simpa [phrase, Writing.phrase, levels, distincts, uniques] using q.filled_ignore w.dialect rows
    | insertGetId q row sequence =>
      simpa [phrase, Writing.phrase, levels, distincts, uniques] using
        q.filled_report w.dialect row sequence
    | insertUsing q columns source =>
      simpa [phrase, Writing.phrase, levels, distincts, uniques] using
        (q.filled_using_iff w columns source).trans (source.filled_iff w)
    | update q values =>
      simpa [phrase, Writing.phrase, levels, distincts, uniques] using
        q.filled_update_iff w.dialect (Query.entries_of_update written)
    | step q id column down amount extra =>
      simpa [phrase, Writing.phrase, levels, distincts, uniques] using
        q.filled_update_iff w.dialect (Query.entries_of_update written)
    | upsert q rows uniqueBy changed given =>
      have filled := q.filled_upsert_iff w.dialect (changes_of_request made)
        (Query.supported_of_upsert written) rows uniqueBy
      rw [phrase, Writing.phrase, filled]
      simp only [levels, distincts, uniques, List.not_mem_nil, false_imp_iff, implies_true,
        not_false_eq_true, true_and]
      -- MySQL finds out by itself by which columns rows are unique, so it is given none.
      split
      · next mysql => simp [mysql]
      · next other => simp [other, eq_comm]
    | delete q =>
      simpa [phrase, Writing.phrase, levels, distincts, uniques] using q.filled_delete_iff w.dialect

end Statements

namespace Compiler

/-- **Lists have items, but for three.** What a compiler makes is put from phrases that show every
keyword behind which a list has to stand. What empties a table has an item in each list; and any other
statement exactly if its joins have their conditions, and columns are given where rows have to agree on
some or to be unique by some. -/
theorem lists_filled_but_three (c : Compiler) (q : Query) (r : Request) (w : Workspace)
    {made : Compiled} (answered : (c.compile q r w).1.answer = .ok made) :
    let writer := Writer.reading c.dialect c.context w.tables
    match made with
    | .one s => ∃ f sql, Form.ofRequest q w.next r = .ok (some f) ∧ c.finish sql s.bindings = .ok s ∧
      writer.Puts (f.phrase writer) sql ∧ ((f.phrase writer).Filled ↔ f.Listed c.dialect)
    | .several ss =>
      List.Forall₂ (fun p s => writer.Puts p s.sql) (q.truncatePhrases c.dialect) ss ∧
        ∀ p ∈ q.truncatePhrases c.dialect, p.Filled := by
  intro writer
  rcases request : Form.ofRequest q w.next r with e | - | f
  · rw [compile_eq, request] at answered
    cases answered
  · rw [compile_eq, request] at answered
    simp only [truncate, Run.map] at answered
    cases emptied : c.dialect.truncateQuery q with
    | error e =>
      rw [emptied] at answered
      cases answered
    | ok ss =>
      rw [emptied] at answered
      cases answered
      exact ⟨Query.puts_truncate (w := writer) emptied, q.filled_truncate c.dialect⟩
  · rw [answer_of_form request] at answered
    obtain ⟨s, answer, rfl⟩ := map_eq_ok.1 answered
    obtain ⟨-, sql, written, finished⟩ := Form.written_of_answer answer
    rw [Request.charge_tables] at written
    exact ⟨f, sql, rfl, finished, Form.puts written, Form.filled_iff request written⟩

/-- Two tables joined in some kind without conditions. -/
def joinedBarely (kind : JoinKind) : Query :=
  (Query.onTable (.name "t")).join ⟨kind, .name "u", []⟩

/-- Of the rows of a table that agree on no columns, one. -/
def distinctOnNothing : Query := (Query.onTable (.name "t")).withDistinct (.on [])

/-- A row that changes what is there already, where no column is unique. -/
def upsertByNothing : Request := .upsert [.ofList [("a", .bound (.literal (.int 1)))]] [] ["a"] {}

/-- A cross join needs no conditions. With another join, with `distinct on` and with `on conflict` there
is nothing behind the keyword. -/
theorem crossJoin_filled_but_three_not :
    let mysql : Compiler := ⟨{}, .mysql, {}⟩
    let postgres : Compiler := ⟨{}, .postgres, {}⟩
    let filled (d : Dialect) (f : Form) : Prop := (f.phrase (.reading d {} {})).Filled
    let upserted : Writing :=
      .upsert (.onTable (.name "t")) [.ofList [("a", .bound (.literal (.int 1)))]] [] ["a"] {}
    ((mysql.compile (joinedBarely .cross) .select {}).1.answer =
        .ok (.one ⟨"select * from `t` cross join `u`", []⟩) ∧
      filled .mysql (.select (joinedBarely .cross))) ∧
    ((mysql.compile (joinedBarely .inner) .select {}).1.answer =
        .ok (.one ⟨"select * from `t` inner join `u` on ", []⟩) ∧
      ¬ filled .mysql (.select (joinedBarely .inner))) ∧
    ((postgres.compile distinctOnNothing .select {}).1.answer =
        .ok (.one ⟨"select distinct on () * from \"t\"", []⟩) ∧
      ¬ filled .postgres (.select distinctOnNothing)) ∧
    ((postgres.compile (.onTable (.name "t")) upsertByNothing {}).1.answer =
        .ok (.one ⟨"insert into \"t\" (\"a\") values (?) on conflict () do update set " ++
          "\"a\" = \"excluded\".\"a\"", [.int 1]⟩) ∧
      ¬ filled .postgres (.writing upserted)) := by
  intro mysql postgres filled upserted
  have filled_iff {c : Compiler} {q : Query} {r : Request} {s : Statement} {f : Form}
      (plain : c.context = {}) (made : Form.ofRequest q 0 r = .ok (some f))
      (answered : (c.compile q r {}).1.answer = .ok (.one s)) :
      filled c.dialect f ↔ f.Listed c.dialect := by
    obtain ⟨f', sql, made', -, -, filled⟩ := c.lists_filled_but_three q r {} answered
    cases made.symm.trans made'
    rwa [plain] at filled
  have crossed : (mysql.compile (joinedBarely .cross) .select {}).1.answer =
      .ok (.one ⟨"select * from `t` cross join `u`", []⟩) := by
    decide +kernel
  have joined : (mysql.compile (joinedBarely .inner) .select {}).1.answer =
      .ok (.one ⟨"select * from `t` inner join `u` on ", []⟩) := by
    decide +kernel
  have distinct : (postgres.compile distinctOnNothing .select {}).1.answer =
      .ok (.one ⟨"select distinct on () * from \"t\"", []⟩) := by
    decide +kernel
  have upsert : (postgres.compile (.onTable (.name "t")) upsertByNothing {}).1.answer =
      .ok (.one ⟨"insert into \"t\" (\"a\") values (?) on conflict () do update set " ++
        "\"a\" = \"excluded\".\"a\"", [.int 1]⟩) := by
    decide +kernel
  refine ⟨⟨crossed, ?_⟩, ⟨joined, fun filled => ?_⟩, ⟨distinct, fun filled => ?_⟩,
    ⟨upsert, fun filled => ?_⟩⟩
  · exact (filled_iff rfl rfl crossed).2 ⟨by decide, by decide, by decide⟩
  · exact absurd ((filled_iff rfl rfl joined).1 filled).joined (by decide)
  · exact absurd ((filled_iff rfl rfl distinct).1 filled).distinct (by decide)
  · exact absurd ((filled_iff rfl rfl upsert).1 filled).unique (by decide)

end Compiler

end SqlFragments
