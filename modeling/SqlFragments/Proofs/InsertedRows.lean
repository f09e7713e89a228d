import SqlFragments.Proofs.Rows

/-!
# What an insertion gives to its table

An insertion gives its table `Inserted` rows: a row of defaults, or a tuple of values for each row in
the columns of the first. Leaving rows out or changing those that are there already is said in front
of that and behind it (`Writing.inserts`).

So no row is lost where rows have columns, and where there is one row. But several rows without
columns are given as one row of defaults, in every dialect (`Compiler.rows_given_but_for_defaults`).
-/

namespace SqlFragments

/-- What an insertion gives to its table, as it is written. -/
inductive Inserted where
  | defaults
  | tuples (columns : List String) (rows : List (List String))

namespace Inserted

/-- The number of rows that the table gets. -/
def count : Inserted → Nat
  | defaults => 1
  | tuples _ rows => rows.length

/-- What is written behind the table. -/
def text (d : Dialect) : Inserted → String
  | defaults =>
    match d with
    | .mysql => " () values ()"
    | _ => " default values"
  | tuples columns rows =>
    " (" ++ Text.commaList columns ++ ") values " ++
      Text.commaList (rows.map fun row => "(" ++ Text.commaList row ++ ")")

/-- Rows in the columns of the first are given as this: a tuple for each, with the row's values in
these columns, or a row of defaults where there are no columns. -/
inductive Of (w : Writer (Except Error)) (rows : List Record) : Inserted → Prop
  | defaults (blank : Record.firstColumns rows = []) : Of w rows .defaults
  | tuples {texts : List (List String)} (named : Record.firstColumns rows ≠ [])
    (each : List.Forall₂ (fun r row =>
      Writer.each w.operand (r.valuesIn (Record.firstColumns rows)) = .ok row) rows texts) :
    Of w rows (.tuples ((Record.firstColumns rows).map w.dialect.wrap) texts)

/-- The words are those of an insertion, with what is said in front to leave rows out, and behind to
leave out or change those that are there already. -/
def Around (words sql : String) : Prop :=
  ∃ verb tail, sql = verb ++ words ++ tail ∧
    verb ∈ ["insert", "insert ignore", "insert or ignore"] ∧
      (tail = "" ∨ ∃ rest, tail = " on " ++ rest)

/-- No row is lost but where several rows have no columns. -/
theorem Of.count_eq_iff {w : Writer (Except Error)} {rows : List Record} {x : Inserted}
    (h : Of w rows x) :
    x.count = rows.length ↔ Record.firstColumns rows ≠ [] ∨ rows.length = 1 := by
  cases h with
  | defaults blank => simp [count, blank, eq_comm]
  | tuples named each => simp [count, named, each.length_eq]

end Inserted

namespace Dialect

variable {d : Dialect} {words insert sql : String}

theorem around_insertOrIgnore (h : d.insertOrIgnore ("insert" ++ words) = .ok sql) :
    Inserted.Around words sql := by
  unfold insertOrIgnore at h
  split at h
  · cases h
    rw [Text.replaceFirst_leading _ _ (by decide)]
    exact ⟨"insert ignore", "", String.append_empty.symm, by decide, .inl rfl⟩
  · cases h
    exact ⟨"insert", _, rfl, by decide, .inr ⟨"conflict do nothing", rfl⟩⟩
  · cases h
    rw [Text.replaceFirst_leading _ _ (by decide)]
    exact ⟨"insert or ignore", "", String.append_empty.symm, by decide, .inl rfl⟩
  · cases h

theorem around_upsert {uniqueBy update : List String} {assignments : List (String × String)}
    (h : d.upsert ("insert" ++ words) uniqueBy update assignments = .ok sql) :
    Inserted.Around words sql := by
  have changed {tail : String} (rest : String) (same : tail = " on " ++ rest) (more : String) :
      Inserted.Around words ("insert" ++ words ++ tail ++ more) := by
    refine ⟨"insert", tail ++ more, String.append_assoc .., by decide, .inr ⟨rest ++ more, ?_⟩⟩
    rw [same, String.append_assoc]
  unfold upsert at h
  split at h
  · cases h
    exact changed "duplicate key update " rfl _
  · cases h
    rw [String.append_assoc, String.append_assoc]
    exact changed "conflict (" rfl _
  · cases h
    rw [String.append_assoc, String.append_assoc]
    exact changed "conflict (" rfl _
  · cases h

end Dialect

section Writers

variable {w : Writer (Except Error)} {q : Query} {rows : List Record} {text : String}

/-- A row is written as its values. -/
theorem Record.row_written {r : Record} (h : w.row r = .ok text) :
    ∃ row, Writer.each w.operand (r.entries.map Prod.snd) = .ok row ∧
      text = "(" ++ Text.commaList row ++ ")" := by
  simp only [Writer.row, bind_eq_ok, pure_eq_ok] at h
  obtain ⟨row, written, rfl⟩ := h
  exact ⟨row, (Writer.each_map (fun _ => rfl) r.entries).trans written, rfl⟩

/-- Rows in some order of their columns are written one by one, each as its values in that order. -/
theorem Record.rows_written {columns texts : List String} (once : columns.Nodup)
    (written : Writer.each w.row (rows.map (inOrder columns)) = .ok texts) :
    ∃ tuples, List.Forall₂ (fun r row => Writer.each w.operand (r.valuesIn columns) = .ok row) rows
        tuples ∧ texts = tuples.map fun row => "(" ++ Text.commaList row ++ ")" := by
  have each := List.forall₂_map_left_iff.1 (Writer.forall₂_of_each written)
  clear written
  induction each with
  | nil => exact ⟨[], .nil, rfl⟩
  | cons first _ ih =>
    obtain ⟨row, values, rfl⟩ := row_written first
    obtain ⟨tuples, each, rfl⟩ := ih
    rw [values_inOrder once] at values
    exact ⟨row :: tuples, .cons values each, rfl⟩

/-- Rows in the columns of the first are inserted with a tuple for each. -/
theorem Query.insert_written (some : rows ≠ [])
    (all : ∀ r ∈ rows, r.SameColumns (Record.firstColumns rows))
    (h : w.insert q (rows.map (Record.inOrder (Record.firstColumns rows))) = .ok text) :
    ∃ table x, w.table q = .ok table ∧ Inserted.Of w rows x ∧
      text = "insert" ++ (" into " ++ table ++ x.text w.dialect) := by
  obtain ⟨first, rest, rfl⟩ := List.exists_cons_of_ne_nil some
  have named : (first.inOrder first.columns).columns = first.columns :=
    Record.columns_inOrder first.distinct fun column wanted =>
      (all first List.mem_cons_self column).2 wanted
  have blank_iff : (first.inOrder first.columns).isEmpty = true ↔ first.columns = [] := by
    rw [Record.isEmpty, List.isEmpty_iff, ← List.map_eq_nil_iff, ← Record.columns, named]
  simp only [Writer.insert, bind_eq_ok, List.map_cons, Record.firstColumns] at h
  obtain ⟨table, target, h⟩ := h
  have words : "insert into " = "insert" ++ " into " := rfl
  refine ⟨table, ?_⟩
  split at h
  · next blank =>
    obtain rfl := pure_eq_ok.1 h
    refine ⟨.defaults, target, .defaults (blank_iff.1 blank), ?_⟩
    cases w.dialect <;> simp only [Dialect.emptyInsert, Inserted.text, words, String.append_assoc]
  · next some =>
    simp only [bind_eq_ok, pure_eq_ok] at h
    obtain ⟨texts, written, rfl⟩ := h
    have mapped : Writer.each w.row ((first :: rest).map (Record.inOrder first.columns)) =
        .ok texts := written
    obtain ⟨tuples, each, rfl⟩ := Record.rows_written first.distinct mapped
    refine ⟨_, target, .tuples (fun none => some (blank_iff.2 none)) each, ?_⟩
    simp only [named, Inserted.text, Record.firstColumns, words, String.append_assoc]

/-- The rows of a statement are given to its table. -/
theorem Writing.inserts {x : Writing} (some : rows ≠ [])
    (all : ∀ r ∈ rows, r.SameColumns (Record.firstColumns rows))
    (h : x.inserted? = .some (rows.map (Record.inOrder (Record.firstColumns rows))))
    (written : x.write w = .ok text) :
    ∃ table given, w.table x.target = .ok table ∧ Inserted.Of w rows given ∧
      Inserted.Around (" into " ++ table ++ given.text w.dialect) text := by
  cases x with
  | insert q =>
    cases h
    obtain ⟨table, given, target, gives, rfl⟩ := q.insert_written some all written
    exact ⟨table, given, target, gives, "insert", "", String.append_empty.symm, by decide, .inl rfl⟩
  -- What a dialect changes in an insertion stands before ` into ` or behind the rows.
  | insertOrIgnore q =>
    cases h
    simp only [write, Writer.insertOrIgnore, bind_eq_ok, lift_eq_ok] at written
    obtain ⟨insert, written, changed⟩ := written
    obtain ⟨table, given, target, gives, rfl⟩ := q.insert_written some all written
    exact ⟨table, given, target, gives, Dialect.around_insertOrIgnore changed⟩
  | upsert q =>
    cases h
    simp only [write, Writer.upsert, bind_eq_ok, lift_eq_ok] at written
    obtain ⟨insert, written, pairs, -, changed⟩ := written
    obtain ⟨table, given, target, gives, rfl⟩ := q.insert_written some all written
    exact ⟨table, given, target, gives, Dialect.around_upsert changed⟩
  | insertGetId | insertUsing | update | step | delete => cases h

end Writers

namespace Compiler

/-- **Rows are given, but for rows of defaults.** An insertion of rows gives its table a tuple for
each row, with the values of the row in the columns of the first, which are named in front; so as
many rows as it was given. Rows without columns are given as one row of defaults, whatever their
number. -/
theorem rows_given_but_for_defaults (c : Compiler) (q : Query) {r : Request} {rows : List Record}
    (some : rows ≠ []) (inserted : r.inserted? = .some rows) (w : Workspace) {s : Statement}
    (answered : (c.compile q r w).1.answer = .ok (.one s)) :
    let writer := Writer.reading c.dialect c.context w.tables
    ∃ sql table x, c.finish sql s.bindings = .ok s ∧ writer.table q = .ok table ∧
      Inserted.Around (" into " ++ table ++ x.text c.dialect) sql ∧ Inserted.Of writer rows x ∧
      (x.count = rows.length ↔ Record.firstColumns rows ≠ [] ∨ rows.length = 1) := by
  intro writer
  rcases Record.normalizeRows_cases rows with
    ⟨all, ordered⟩ | ⟨before, r, after, fault, split, earlier, other, why, refused⟩
  · obtain ⟨x, made, put, rfl⟩ := Form.of_inserted q w.next inserted ordered
    rw [answer_of_form made] at answered
    obtain ⟨_, answered, ⟨⟩⟩ := map_eq_ok.1 answered
    obtain ⟨-, sql, written, finished⟩ := Form.written_of_answer answered
    rw [Request.charge_tables] at written
    obtain ⟨table, given, target, gives, around⟩ := x.inserts (w := writer) some all put written
    exact ⟨sql, table, given, finished, target, around, gives, gives.count_eq_iff⟩
  · cases (c.answer_of_unordered q w inserted refused).symm.trans answered

/-- Two rows with their columns in different orders. -/
def twoRows : List (List (String × Operand)) :=
  let value (n : Int64) : Operand := .bound (.literal (.int n))
  [[("a", value 1), ("b", value 2)], [("b", value 3), ("a", value 4)]]

/-- Two rows are given as two, in the columns of the first. Two rows without columns are given as one,
where the database could take `() values (), ()`. -/
theorem twoRows_given_but_twoBlank_lost :
    let mysql : Compiler := ⟨{}, .mysql, {}⟩
    let writer := Writer.reading .mysql {} {}
    let table : Query := .onTable (.name "t")
    let sql := "insert into `t` (`a`, `b`) values (?, ?), (?, ?)"
    let blankSql := "insert into `t` () values ()"
    ((mysql.compile table (.insert (twoRows.map .ofList)) {}).1.answer =
        .ok (.one ⟨sql, [.int 1, .int 2, .int 4, .int 3]⟩) ∧
      ∃ into x, Inserted.Around (" into " ++ into ++ x.text .mysql) sql ∧
        Inserted.Of writer (twoRows.map .ofList) x ∧ x.count = 2) ∧
    (mysql.compile table (.insert ([[], []].map .ofList)) {}).1.answer = .ok (.one ⟨blankSql, []⟩) ∧
      ∃ into x, Inserted.Around (" into " ++ into ++ x.text .mysql) blankSql ∧
        Inserted.Of writer ([[], []].map .ofList) x ∧ x.count ≠ 2 := by
  intro mysql writer table sql blankSql
  have answered : (mysql.compile table (.insert (twoRows.map .ofList)) {}).1.answer =
      .ok (.one ⟨sql, [.int 1, .int 2, .int 4, .int 3]⟩) := by
    decide +kernel
  have blank : (mysql.compile table (.insert ([[], []].map .ofList)) {}).1.answer =
      .ok (.one ⟨blankSql, []⟩) := by
    decide +kernel
  refine ⟨⟨answered, ?_⟩, blank, ?_⟩
  · obtain ⟨text, into, x, finished, -, around, gives, count⟩ :=
      mysql.rows_given_but_for_defaults table (List.cons_ne_nil _ _) rfl {} answered
    have same : sql = text := sql_of_finish rfl finished
    refine ⟨into, x, same ▸ around, gives, count.2 (.inl ?_)⟩
    decide
  · obtain ⟨text, into, x, finished, -, around, gives, count⟩ :=
      mysql.rows_given_but_for_defaults table (List.cons_ne_nil _ _) rfl {} blank
    have same : blankSql = text := sql_of_finish rfl finished
    refine ⟨into, x, same ▸ around, gives, fun both => ?_⟩
    have kept := count.1 both
    revert kept
    decide

end Compiler

end SqlFragments
