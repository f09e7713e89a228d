import SqlFragments.Proofs.QueryPhrases

/-!
# The phrases of statements

The phrase of a statement is put as the statement is written (`Form.puts`). What makes an insertion
leave rows out or change those that are there already is said in front of it and behind it, so the
phrase of an insertion takes the words that it begins with.
-/

namespace SqlFragments

/-! ## Rows and assignments -/

/-- Names with commas between them. -/
def Phrase.names (names : List String) : List Phrase :=
  commas (names.map fun name => .part (.name name))

/-- The phrase of the values of a row. -/
def Record.tuple (r : Record) : Phrase :=
  .word "(" ++ .joined (Phrase.commas (r.entries.map fun entry => entry.2.phrase)) ++ .word ")"

/-- The phrase of the assignment of a value. -/
def Phrase.assigned (column : String) (value : Phrase) : Phrase :=
  .part (.name column) ++ .word " = " ++ value

/-- The phrase of a key of a JSON path. -/
def Phrase.jsonKey (key : String) : Phrase := .word "\"" ++ .part (.verbatim key) ++ .word "\""

namespace Dialect

/-- The phrase of the assignment of a value inside a JSON column. Two dialects have none. -/
def jsonPhrase (d : Dialect) (column : String) (path : List String) (value : Phrase) : Phrase :=
  let column : Phrase := .part (.name column)
  match d with
  | mysql =>
    column ++ .word " = json_set(" ++ column ++ .word ", '$." ++
      .joined (Phrase.apart (.word ".") (path.map Phrase.jsonKey)) ++ .word "', " ++ value ++ .word ")"
  | postgres =>
    column ++ .word " = jsonb_set(" ++ column ++ .word "::jsonb, '\x7b" ++
      .joined (Phrase.apart (.word ",") (path.map Phrase.jsonKey)) ++ .word "\x7d', " ++ value ++
      .word ")"
  | sqlite | sqlServer => column

/-- The phrase of the assignment of a value to a column, or to a place inside a JSON column. -/
def assignmentPhrase (d : Dialect) (column : String) (value : Operand) : Phrase :=
  match Text.splitArrows column.toList with
  | base :: key :: keys =>
    d.jsonPhrase (String.ofList base) ((key :: keys).map String.ofList) value.phrase
  | _ => .assigned column value.phrase

/-- The phrase of the value that the inserted row has in a column. -/
def insertedPhrase (d : Dialect) (column : String) : Phrase :=
  match d with
  | mysql => .word "values(" ++ .part (.name column) ++ .word ")"
  | postgres | sqlite | sqlServer => .own "excluded" ++ .word "." ++ .part (.name column)

/-- The phrases of assignments of what the inserted row would have set, then of given values. -/
def setPhrases (d : Dialect) (changed : List String) (given : Record) : List Phrase :=
  Phrase.commas
    ((changed.map fun column => Phrase.assigned column (d.insertedPhrase column)) ++
      given.entries.map fun entry => Phrase.assigned entry.1 entry.2.phrase)

/-- The phrase of the question whether a query has rows. -/
def existsPhrase (d : Dialect) (query : Phrase) : Phrase :=
  match d with
  | sqlServer =>
    .list .select (.word "")
      [.word "case when exists(" ++ query ++ .word ") then 1 else 0 end as " ++ .own "exists"]
  | mysql | postgres | sqlite =>
    .list .select (.word "") [.word "exists(" ++ query ++ .word ") as " ++ .own "exists"]

end Dialect

/-! ## Statements -/

namespace Query

variable (d : Dialect) (q : Query)

/-- The phrase of the table of a query. -/
def tablePhrase : Phrase := (q.slots.table.map Ident.phrase).getD (.word "")

/-- The phrase of an insertion that begins with `verb`. -/
def insertPhrase (verb : Phrase) (rows : List Record) : Phrase :=
  let start := verb ++ .word " into " ++ q.tablePhrase
  let blank :=
    match d with
    | .mysql => start ++ .word " () values ()"
    | .postgres | .sqlite | .sqlServer => start ++ .word " default values"
  match rows with
  | [] => blank
  | first :: _ =>
    if first.isEmpty then blank
    else
      start ++ .word " (" ++ .joined (Phrase.names first.columns) ++ .word ") values " ++
        .joined (Phrase.commas (rows.map Record.tuple))

/-- The phrase of an insertion that leaves out rows that are there already. SQL Server has none. -/
def ignorePhrase (rows : List Record) : Phrase :=
  match d with
  | .mysql => q.insertPhrase d (.word "insert ignore") rows
  | .sqlite => q.insertPhrase d (.word "insert or ignore") rows
  | .postgres => q.insertPhrase d (.word "insert") rows ++ .leftOut
  | .sqlServer => q.insertPhrase d (.word "insert") rows

/-- The phrase of an insertion that reports its key. -/
def reportPhrase (row : Record) (sequence : String) : Phrase :=
  let insert := q.insertPhrase d (.word "insert") [row]
  match d with
  | .postgres => insert ++ .word " returning " ++ .own sequence
  | .mysql | .sqlite | .sqlServer => insert

/-- The phrase of an insertion that changes rows that are there already. SQL Server has none. -/
def upsertPhrase (rows : List Record) (uniqueBy changed : List String) (given : Record) : Phrase :=
  let insert := q.insertPhrase d (.word "insert") rows
  let sets := d.setPhrases changed given
  match d with
  | .mysql => insert ++ .list .duplicate (.word "") sets
  | .postgres | .sqlite =>
    insert ++ .list .conflict (.word "") (Phrase.names uniqueBy) ++ .word ")" ++
      .list .update (.word "") sets
  | .sqlServer => insert

/-- The phrase of the end of a statement that changes rows. -/
def tailPhrase : Phrase :=
  .clause .filter (Predicate.phrases d q.slots.wheres) ++ Order.clause q.slots.page.orders ++
    match q.slots.page.limit with
    | some n => .word " limit " ++ .number n
    | none => .word ""

/-- The phrase of the joins of a query. -/
def joinsPhrase : Phrase := .joined (q.slots.joins.map (Join.phrase d))

/-- The phrase of the change of columns of rows. -/
def updatePhrase (values : Record) : Phrase :=
  .word "update " ++ q.tablePhrase ++ q.joinsPhrase d ++
    .list .set (.word "")
      (Phrase.commas (values.entries.map fun entry => d.assignmentPhrase entry.1 entry.2)) ++
    q.tailPhrase d

/-- The phrase of what the deletion through joins calls the table that loses rows. -/
def targetPhrase : Phrase :=
  match q.slots.table with
  | some (.name name) => .called name
  | _ => q.tablePhrase

/-- The phrase of the deletion of rows. -/
def deletePhrase : Phrase :=
  .word "delete " ++ (if q.slots.joins.isEmpty then .word "" else q.targetPhrase ++ .word " ") ++
    .word "from " ++ q.tablePhrase ++ q.joinsPhrase d ++ q.tailPhrase d

end Query

section Forms

variable (w : Writer (Except Error))

/-- The phrase of the insertion of the rows of a query. -/
def Query.usingPhrase (q : Query) (columns : List String) (source : Query) : Phrase :=
  .word "insert into " ++ q.tablePhrase ++ .word " " ++
    (if columns.isEmpty then .word ""
      else .word "(" ++ .joined (Phrase.names columns) ++ .word ") ") ++ source.phrase w

/-- The phrase of a statement that writes rows. -/
def Writing.phrase : Writing → Phrase
  | insert q rows => q.insertPhrase w.dialect (.word "insert") rows
  | insertOrIgnore q rows => q.ignorePhrase w.dialect rows
  | insertGetId q row sequence => q.reportPhrase w.dialect row sequence
  | insertUsing q columns source => q.usingPhrase w columns source
  | update q values => q.updatePhrase w.dialect values
  | step q id column down amount extra =>
    q.updatePhrase w.dialect (extra.stepped w.dialect id column down amount)
  | upsert q rows uniqueBy changed given => q.upsertPhrase w.dialect rows uniqueBy changed given
  | delete q => q.deletePhrase w.dialect

/-- The phrase of a statement. -/
def Form.phrase : Form → Phrase
  | select q => q.phrase w
  | hasRows q => w.dialect.existsPhrase (q.phrase w)
  | writing x => x.phrase w

end Forms

/-- The phrases of the statements that empty the table of a query. -/
def Query.truncatePhrases (d : Dialect) (q : Query) : List Phrase :=
  match d with
  | .postgres => [.word "truncate " ++ q.tablePhrase ++ .word " restart identity cascade"]
  | .sqlite =>
    [.word "delete from sqlite_sequence" ++ .list .filter (.word "") [.word "name = ?"],
      .word "delete from " ++ q.tablePhrase]
  | .mysql | .sqlServer => [.word "truncate table " ++ q.tablePhrase]

/-! ## Phrases are put as what a writer writes -/

section Puts

variable {w : Writer (Except Error)} {text : String}

namespace Writer.Puts

variable {p : Phrase}

/-- Names with commas between them. -/
theorem names (names : List String) :
    w.Puts (.joined (Phrase.names names)) (Text.commaList (names.map w.dialect.wrap)) :=
  joined (.commas (puts_names names))

theorem assigned (column : String) (h : w.Puts p text) :
    w.Puts (.assigned column p) (w.dialect.wrap column ++ " = " ++ text) :=
  ((name column).closed " = ").append h

/-- The keys of a JSON path, with a mark between them. -/
theorem jsonKeys {path keys : List String} {mark : Phrase} {m : String}
    (h : Dialect.jsonKeys path = .ok keys) (between : w.Puts mark m) :
    w.Puts (.joined (Phrase.apart mark (path.map Phrase.jsonKey))) (Text.separated m keys) := by
  have each : List.Forall₂ w.Puts (path.map Phrase.jsonKey) keys := by
    induction path generalizing keys with
    | nil =>
      obtain rfl : [] = keys := Except.ok.inj h
      exact .nil
    | cons key rest ih =>
      simp only [Dialect.jsonKeys, bind_eq_ok, pure_eq_ok] at h
      obtain ⟨first, hfirst, others, hothers, rfl⟩ := h
      refine .cons ?_ (ih hothers)
      unfold Dialect.jsonKey at hfirst
      split at hfirst
      · cases hfirst
        exact ((verbatim key).opened "\"").closed "\""
      · cases hfirst
  exact joined (.apart between each)

theorem json {column : String} {path : List String} {value : String} (h : w.Puts p value)
    (written : w.dialect.jsonUpdate (w.dialect.wrap column) path value = .ok text) :
    w.Puts (w.dialect.jsonPhrase column path p) text := by
  have column := name (w := w) column
  cases same : w.dialect with
  | sqlite | sqlServer =>
    rw [same] at written
    cases written
  | mysql =>
    simp only [same, Dialect.jsonUpdate, bind_eq_ok, pure_eq_ok] at written
    obtain ⟨keys, hkeys, rfl⟩ := written
    rw [same] at column
    exact ((((((column.closed " = json_set(").append column).closed ", '$.").append
      (jsonKeys hkeys (.word "."))).closed "', ").append h).closed ")"
  | postgres =>
    simp only [same, Dialect.jsonUpdate, bind_eq_ok, pure_eq_ok] at written
    obtain ⟨keys, hkeys, rfl⟩ := written
    rw [same] at column
    exact ((((((column.closed " = jsonb_set(").append column).closed "::jsonb, '\x7b").append
      (jsonKeys hkeys (.word ","))).closed "\x7d', ").append h).closed ")"

theorem assignment {column : String} {value : Operand}
    (h : w.assignment column value = .ok text) :
    w.Puts (w.dialect.assignmentPhrase column value) text := by
  simp only [Writer.assignment, bind_eq_ok] at h
  obtain ⟨value_text, written, h⟩ := h
  unfold Dialect.assignmentPhrase
  split
  · next base key keys split =>
    rw [split] at h
    exact json (Operand.puts written) (lift_eq_ok.1 h)
  · next other =>
    split at h
    · next base key keys split => exact absurd split (other base key keys)
    · obtain rfl := pure_eq_ok.1 h
      exact assigned column (Operand.puts written)

/-- What changes rows that are there already, behind an insertion. -/
theorem conflict {items : List Phrase} {sets : String} (h : w.Puts p text) (uniqueBy : List String)
    (hs : w.PutsAll items sets) :
    w.Puts
      (p ++ .list .conflict (.word "") (Phrase.names uniqueBy) ++ .word ")" ++
        .list .update (.word "") items)
      (text ++ " on conflict (" ++ Text.commaList (uniqueBy.map w.dialect.wrap) ++
        ") do update set " ++ sets) := by
  have unique := behind .conflict (.commas (puts_names (w := w) uniqueBy))
  have words : ") do update set " = ")" ++ ListKeyword.update.word := rfl
  refine (((h.append unique).closed ")").append (.behind .update hs)).congr ?_
  simp only [words, String.append_assoc]
  rfl

/-- The question whether a query has rows. -/
theorem hasRows (h : w.Puts p text) :
    w.Puts (w.dialect.existsPhrase p) (w.dialect.hasRows text) := by
  have own := own (w := w) "exists"
  have same (a b c e : String) : a ++ (b ++ text ++ c ++ e) = a ++ b ++ text ++ c ++ e := by
    simp only [String.append_assoc]
  have cased : ListKeyword.select.word ++ "case when exists(" = "select case when exists(" := rfl
  have plain : ListKeyword.select.word ++ "exists(" = "select exists(" := rfl
  obtain ⟨d, expression⟩ := w
  cases d with
  | sqlServer =>
    refine (behind .select (.single (((h.opened "case when exists(").closed
      ") then 1 else 0 end as ").append own))).congr ?_
    rw [same, cased]
    rfl
  | mysql | postgres | sqlite =>
    refine (behind .select (.single (((h.opened "exists(").closed ") as ").append own))).congr ?_
    rw [same, plain]
    rfl

end Writer.Puts

namespace Query

variable {q : Query}

theorem puts_table (h : w.table q = .ok text) : w.Puts q.tablePhrase text := by
  unfold Writer.table at h
  unfold tablePhrase
  cases table : q.slots.table with
  | none =>
    rw [table] at h
    cases h
  | some t =>
    rw [table] at h
    exact Ident.puts h

theorem puts_tuple {r : Record} (h : w.row r = .ok text) : w.Puts r.tuple text := by
  simp only [Writer.row, bind_eq_ok, pure_eq_ok] at h
  obtain ⟨values, written, rfl⟩ := h
  exact ((Writer.Puts.joined (.commas (Writer.puts_each written fun _ _ =>
    Operand.puts))).opened "(").closed ")"

/-- An insertion begins with `insert`, and is put alike with another word there. -/
theorem puts_insert {rows : List Record} (h : w.insert q rows = .ok text) :
    ∃ rest, text = "insert" ++ rest ∧ ∀ {verb : Phrase} {word : String}, w.Puts verb word →
      w.Puts (q.insertPhrase w.dialect verb rows) (word ++ rest) := by
  simp only [Writer.insert, bind_eq_ok] at h
  obtain ⟨table, htable, h⟩ := h
  have words : "insert into " = "insert" ++ " into " := rfl
  have start {verb : Phrase} {word : String} (hverb : w.Puts verb word) :
      w.Puts (verb ++ .word " into " ++ q.tablePhrase) (word ++ " into " ++ table) :=
    (hverb.closed " into ").append (puts_table htable)
  have blank : ∃ rest, w.dialect.emptyInsert table = "insert" ++ rest ∧
      ∀ {verb : Phrase} {word : String}, w.Puts verb word →
        w.Puts
          (match w.dialect with
            | .mysql => verb ++ .word " into " ++ q.tablePhrase ++ .word " () values ()"
            | .postgres | .sqlite | .sqlServer =>
              verb ++ .word " into " ++ q.tablePhrase ++ .word " default values")
          (word ++ rest) := by
    cases w.dialect with
    | mysql =>
      refine ⟨" into " ++ table ++ " () values ()", ?_, fun hverb =>
        ((start hverb).closed " () values ()").congr ?_⟩
      all_goals simp only [Dialect.emptyInsert, words, String.append_assoc]
    | postgres | sqlite | sqlServer =>
      refine ⟨" into " ++ table ++ " default values", ?_, fun hverb =>
        ((start hverb).closed " default values").congr ?_⟩
      all_goals simp only [Dialect.emptyInsert, words, String.append_assoc]
  unfold insertPhrase
  cases rows with
  | nil =>
    obtain rfl := pure_eq_ok.1 h
    exact blank
  | cons first others =>
    dsimp only at h ⊢
    split at h
    · next none =>
      obtain rfl := pure_eq_ok.1 h
      simpa only [none, if_true] using blank
    · next some =>
      simp only [bind_eq_ok, pure_eq_ok] at h
      obtain ⟨tuples, written, rfl⟩ := h
      have rows_put := Writer.Puts.joined (.commas (Writer.puts_each written fun _ _ => puts_tuple))
      refine ⟨" into " ++ table ++ " (" ++ Text.commaList (first.columns.map w.dialect.wrap) ++
        ") values " ++ Text.commaList tuples, ?_, fun hverb => ?_⟩
      · simp only [words, String.append_assoc]
      · rw [if_neg some]
        refine (((((start hverb).closed " (").append (.names first.columns)).closed
          ") values ").append rows_put).congr ?_
        simp only [String.append_assoc]

theorem puts_ignore {rows : List Record} (h : w.insertOrIgnore q rows = .ok text) :
    w.Puts (q.ignorePhrase w.dialect rows) text := by
  simp only [Writer.insertOrIgnore, bind_eq_ok, lift_eq_ok] at h
  obtain ⟨insert, written, h⟩ := h
  obtain ⟨rest, rfl, put⟩ := puts_insert written
  unfold ignorePhrase
  cases same : w.dialect with
  | mysql =>
    rw [same] at h put
    obtain rfl := Except.ok.inj h
    rw [Text.replaceFirst_leading _ _ (by decide)]
    exact put (.word "insert ignore")
  | postgres =>
    rw [same] at h put
    obtain rfl := Except.ok.inj h
    exact (put (.word "insert")).append rfl
  | sqlite =>
    rw [same] at h put
    obtain rfl := Except.ok.inj h
    rw [Text.replaceFirst_leading _ _ (by decide)]
    exact put (.word "insert or ignore")
  | sqlServer =>
    rw [same] at h
    cases h

theorem puts_report {row : Record} {sequence : String}
    (h : w.insertGetId q row sequence = .ok text) :
    w.Puts (q.reportPhrase w.dialect row sequence) text := by
  simp only [Writer.insertGetId, bind_eq_ok, pure_eq_ok] at h
  obtain ⟨insert, written, rfl⟩ := h
  obtain ⟨rest, rfl, put⟩ := puts_insert written
  have inserted : w.Puts (q.insertPhrase w.dialect (.word "insert") [row]) ("insert" ++ rest) :=
    put (.word _)
  have key : w.Puts (.own sequence) (w.dialect.quote sequence) := .own sequence
  unfold reportPhrase
  cases same : w.dialect with
  | postgres =>
    rw [same] at inserted key
    exact (inserted.closed " returning ").append key
  | mysql | sqlite | sqlServer =>
    rw [same] at inserted
    exact inserted

theorem puts_using {columns : List String} {source : Query}
    (h : w.insertUsing q columns source = .ok text) :
    w.Puts (q.usingPhrase w columns source) text := by
  simp only [Writer.insertUsing, bind_eq_ok, pure_eq_ok] at h
  obtain ⟨table, htable, read, hread, rfl⟩ := h
  refine ((((puts_table htable).opened "insert into ").closed " ").append ?_).append
    (source.puts hread)
  cases columns with
  | nil => exact .word ""
  | cons c cs => exact ((Writer.Puts.names (c :: cs)).opened "(").closed ") "

theorem puts_assignments {entries : List (String × Operand)} {pairs : List (String × String)}
    (h : w.assignments entries = .ok pairs) :
    List.Forall₂ w.Puts (entries.map fun entry => Phrase.assigned entry.1 entry.2.phrase)
      (pairs.map fun pair => pair.1 ++ " = " ++ pair.2) := by
  induction entries generalizing pairs with
  | nil =>
    obtain rfl : [] = pairs := pure_eq_ok.1 h
    exact .nil
  | cons entry rest ih =>
    simp only [Writer.assignments, bind_eq_ok, pure_eq_ok] at h
    obtain ⟨value, written, others, hothers, rfl⟩ := h
    exact .cons (.assigned entry.1 (Operand.puts written)) (ih hothers)

/-- The assignments of an insertion that changes rows that are there already. -/
theorem puts_sets {d : Dialect} {inserted : String → String} {changed : List String} {given : Record}
    {pairs : List (String × String)}
    (hi : ∀ column, w.Puts (d.insertedPhrase column) (inserted (w.dialect.wrap column)))
    (hg : w.assignments given.entries = .ok pairs) :
    w.PutsAll (d.setPhrases changed given)
      (Dialect.conflictSets inserted (changed.map w.dialect.wrap) pairs) := by
  have columns : List.Forall₂ w.Puts
      (changed.map fun column => Phrase.assigned column (d.insertedPhrase column))
      ((changed.map w.dialect.wrap).map fun column => column ++ " = " ++ inserted column) := by
    rw [List.map_map, List.forall₂_map_left_iff, List.forall₂_map_right_iff]
    exact List.forall₂_same.2 fun column _ => .assigned column (hi column)
  exact .commas (List.rel_append columns (puts_assignments hg))

theorem puts_upsert {rows : List Record} {uniqueBy changed : List String} {given : Record}
    (h : w.upsert q rows uniqueBy changed given = .ok text) :
    w.Puts (q.upsertPhrase w.dialect rows uniqueBy changed given) text := by
  simp only [Writer.upsert, bind_eq_ok, lift_eq_ok] at h
  obtain ⟨insert, written, pairs, hpairs, h⟩ := h
  obtain ⟨rest, rfl, put⟩ := puts_insert written
  have insert : w.Puts (q.insertPhrase w.dialect (.word "insert") rows) ("insert" ++ rest) :=
    put (.word _)
  have values : w.PutsAll (Dialect.mysql.setPhrases changed given)
      (Dialect.conflictSets (fun column => "values(" ++ column ++ ")")
        (changed.map w.dialect.wrap) pairs) :=
    puts_sets (fun column => ((Writer.Puts.name column).opened "values(").closed ")") hpairs
  have excluded : w.PutsAll (Dialect.postgres.setPhrases changed given)
      (Dialect.conflictSets (fun column => w.dialect.quote "excluded" ++ "." ++ column)
        (changed.map w.dialect.wrap) pairs) :=
    puts_sets (fun column => ((Writer.Puts.own "excluded").closed ".").append (.name column)) hpairs
  obtain ⟨d, expression⟩ := w
  cases d with
  | mysql =>
    obtain rfl := Except.ok.inj h
    exact (insert.append (.behind .duplicate values)).congr (String.append_assoc ..).symm
  | postgres | sqlite =>
    obtain rfl := Except.ok.inj h
    exact insert.conflict uniqueBy excluded
  | sqlServer => cases h

/-- The end of a statement that changes rows. -/
theorem puts_tail (h : w.mutationTail q.slots = .ok text) :
    w.Puts (q.tailPhrase w.dialect) text := by
  simp only [Writer.mutationTail, bind_eq_ok, pure_eq_ok] at h
  obtain ⟨wheres, hwheres, orders, horders, rfl⟩ := h
  refine ((Predicate.puts_clause .filter hwheres).append (Order.puts_clause horders)).append ?_
  cases q.slots.page.limit with
  | none => exact .word ""
  | some n => exact (Writer.Puts.number n).opened " limit "

theorem puts_update {values : Record} (h : w.update q values = .ok text) :
    w.Puts (q.updatePhrase w.dialect values) text := by
  simp only [Writer.update, bind_eq_ok] at h
  obtain ⟨-, -, h⟩ := h
  split at h
  · cases h
  · simp only [bind_eq_ok, pure_eq_ok] at h
    obtain ⟨table, htable, assignments, hassignments, joins, hjoins, tail, htail, rfl⟩ := h
    have sets := Writer.Puts.behind .set (.commas (Writer.puts_each hassignments fun _ _ =>
      Writer.Puts.assignment))
    refine (((((puts_table htable).opened "update ").append (Join.puts_joined hjoins)).append
      sets).append (puts_tail htail)).congr ?_
    simp only [String.append_assoc]
    rfl

theorem puts_target {table : String} (h : w.table q = .ok table) :
    w.Puts q.targetPhrase (w.target q table) := by
  have named := puts_table h
  unfold targetPhrase Writer.target
  rcases q.slots.table with - | ⟨name | fragment⟩
  · exact named
  · exact rfl
  · exact named

theorem puts_delete (h : w.delete q = .ok text) : w.Puts (q.deletePhrase w.dialect) text := by
  simp only [Writer.delete, bind_eq_ok, pure_eq_ok] at h
  obtain ⟨-, -, table, htable, joins, hjoins, tail, htail, rfl⟩ := h
  have target : w.Puts
      (if q.slots.joins.isEmpty then .word "" else q.targetPhrase ++ .word " ")
      (if q.slots.joins.isEmpty then "" else w.target q table ++ " ") := by
    split
    · exact .word ""
    · exact (puts_target htable).closed " "
  exact (((((target.opened "delete ").closed "from ").append (puts_table htable)).append
    (Join.puts_joined hjoins)).append (puts_tail htail))

theorem puts_truncate {ss : List Statement} (h : w.dialect.truncateQuery q = .ok ss) :
    List.Forall₂ (fun p s => w.Puts p s.sql) (q.truncatePhrases w.dialect) ss := by
  unfold Dialect.truncateQuery at h
  unfold truncatePhrases tablePhrase
  cases table : q.slots.table with
  | none =>
    rw [table] at h
    cases h
  | some t =>
    cases t with
    | raw fragment =>
      rw [table] at h
      cases h
    | name name =>
      rw [table] at h
      have named := Writer.Puts.name (w := w) name
      obtain ⟨d, expression⟩ := w
      cases d with
      | mysql | sqlServer =>
        obtain rfl := Except.ok.inj h
        exact .cons (named.opened "truncate table ") .nil
      | postgres =>
        obtain rfl := Except.ok.inj h
        exact .cons ((named.opened "truncate ").closed " restart identity cascade") .nil
      | sqlite =>
        obtain rfl := Except.ok.inj h
        refine .cons ?_ (.cons (named.opened "delete from ") .nil)
        exact (Writer.Puts.behind .filter (.single (.word "name = ?"))).opened
          "delete from sqlite_sequence"

end Query

/-- A statement that writes rows is written as its phrase is put. -/
theorem Writing.puts {x : Writing} (h : x.write w = .ok text) : w.Puts (x.phrase w) text := by
  cases x with
  | insert q rows =>
    obtain ⟨rest, rfl, put⟩ := Query.puts_insert h
    exact put (.word "insert")
  | insertOrIgnore q rows => exact Query.puts_ignore h
  | insertGetId q row sequence => exact Query.puts_report h
  | insertUsing q columns source => exact Query.puts_using h
  | update q values => exact Query.puts_update h
  | step q id column down amount extra => exact Query.puts_update h
  | upsert q rows uniqueBy changed given => exact Query.puts_upsert h
  | delete q => exact Query.puts_delete h

/-- **Statements as phrases.** A statement is written as its phrase is put. -/
theorem Form.puts {f : Form} (h : f.write w = .ok text) : w.Puts (f.phrase w) text := by
  cases f with
  | select q => exact q.puts h
  | hasRows q =>
    simp only [write, Writer.hasRows, bind_eq_ok, pure_eq_ok] at h
    obtain ⟨read, hread, rfl⟩ := h
    exact (q.puts hread).hasRows
  | writing x => exact x.puts h

end Puts

end SqlFragments
