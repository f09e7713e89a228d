import SqlFragments.Proofs.SelectAlignment
import SqlFragments.Query.Record

/-!
# Insertions and their bindings

An insertion writes the table, the columns of the first row and the values row by row, and collects
the bindings of the table and of the rows. A first row without columns writes a row of defaults in
place of all rows: since rows are put into the columns of the first, no other row has values then
(`Record.matching_of_normal`).

The words of an insertion are changed in front to leave rows out, where the first `insert` is that
of the statement (`Text.replaceFirst_leading`), and extended at the end, where rows that are there
already get what the inserted row would have set, then given values.
-/

namespace SqlFragments

/-! ## Rows in the columns of the first -/

namespace Record

/-- The parts of the values in column order. -/
def valueParts (r : Record) : List Part := r.entries.flatMap fun entry => entry.2.parts

/-- The columns and the values. -/
def parts (r : Record) : List Part := r.columns.map Part.name ++ r.valueParts

@[simp] theorem brought_valueParts (r : Record) : brought r.valueParts = r.bindings := by
  simp [valueParts, bindings]

theorem setEntry_ne_nil (column : String) (value : Operand) (entries : List (String × Operand)) :
    setEntry column value entries ≠ [] := by
  cases entries with
  | nil => simp [setEntry]
  | cons entry rest =>
    rw [setEntry]
    split <;> simp

/-- A record is empty only when nothing is set. -/
theorem ofList_entries_eq_nil_iff {settings : List (String × Operand)} :
    (ofList settings).entries = [] ↔ settings = [] := by
  have kept : ∀ (more : List (String × Operand)) (r : Record), r.entries ≠ [] →
      (more.foldl (fun r entry => r.set entry.1 entry.2) r).entries ≠ [] := by
    intro more
    induction more with
    | nil => exact fun r h => h
    | cons entry more ih => exact fun r _ => ih _ (setEntry_ne_nil _ _ _)
  cases settings with
  | nil => exact ⟨fun _ => rfl, fun _ => rfl⟩
  | cons entry more =>
    have first : (Record.set {} entry.1 entry.2).entries ≠ [] := setEntry_ne_nil _ _ _
    exact ⟨fun h => absurd h (kept more _ first), fun h => nomatch h⟩

theorem pick_eq_nil_iff {row : Nat} {r : Record} {columns : List String}
    {entries : List (String × Operand)} (h : r.pick row columns = .ok entries) :
    entries = [] ↔ columns = [] := by
  cases columns with
  | nil =>
    obtain rfl := Except.ok.inj h
    exact ⟨fun _ => rfl, fun _ => rfl⟩
  | cons column columns =>
    rw [pick] at h
    split at h
    · cases h
    · simp only [bind_eq_ok, pure_eq_ok] at h
      obtain ⟨others, -, rfl⟩ := h
      simp

/-- A row in the order of the columns is empty exactly when there are no columns. -/
theorem reorder_entries_eq_nil_iff {row : Nat} {columns : List String} {r out : Record}
    (h : r.reorder row columns = .ok out) : out.entries = [] ↔ columns = [] := by
  unfold reorder at h
  split at h
  · simp only [bind_eq_ok, pure_eq_ok] at h
    obtain ⟨entries, picked, rfl⟩ := h
    rw [ofList_entries_eq_nil_iff, pick_eq_nil_iff picked]
  · cases h

theorem reorderAll_entries_eq_nil_iff {columns : List String} {row : Nat} {rows out : List Record}
    (h : reorderAll columns row rows = .ok out) : ∀ r ∈ out, r.entries = [] ↔ columns = [] := by
  induction rows generalizing row out with
  | nil =>
    obtain rfl := Except.ok.inj h
    exact fun r hr => nomatch hr
  | cons r rows ih =>
    simp only [reorderAll, bind_eq_ok, pure_eq_ok] at h
    obtain ⟨first, hfirst, others, hothers, rfl⟩ := h
    intro s hs
    rcases List.mem_cons.1 hs with rfl | later
    · exact reorder_entries_eq_nil_iff hfirst
    · exact ih hothers s later

/-- Rows of which none has values, if the first has none. -/
def Matching (rows : List Record) : Prop :=
  ∀ first ∈ rows.head?, first.entries = [] → ∀ r ∈ rows, r.entries = []

/-- Rows in the columns of the first match it. -/
theorem matching_of_normal {given rows : List Record} (h : normalizeRows given = .ok rows) :
    Matching rows := by
  cases given with
  | nil =>
    obtain rfl := Except.ok.inj h
    exact fun first hfirst => nomatch hfirst
  | cons g gs =>
    have same := reorderAll_entries_eq_nil_iff h
    intro first hfirst empty r hr
    have none : g.columns = [] := (same first (List.mem_of_head? hfirst)).1 empty
    exact (same r hr).2 none

/-- A row on its own matches. -/
theorem matching_singleton (r : Record) : Matching [r] := by
  rintro first hfirst empty s hs
  obtain rfl : r = first := by simpa using hfirst
  rw [List.mem_singleton.1 hs, empty]

end Record

/-! ## Words in front -/

/-- In a text that starts with it, the first `old` is the one in front. -/
theorem Text.replaceFirst_leading {old : String} (new rest : String) (h : old.toList ≠ []) :
    replaceFirst old new (old ++ rest) = new ++ rest := by
  obtain ⟨c, cs, chars⟩ := List.exists_cons_of_ne_nil h
  have found : breakWhere (after? old.toList) (old.toList ++ rest.toList) =
      some ([], rest.toList) := by
    have front := after?_append old.toList rest.toList
    rw [chars, List.cons_append] at front ⊢
    rw [breakWhere, front]
  unfold replaceFirst
  rw [String.toList_append, found]
  simp [String.ofList_append]

/-! ## Insertions -/

variable {w : Writer (Except Error)} {text : String}

theorem lift_eq_ok {α : Type} {x : Except Error α} {a : α} :
    (Writer.lift x : Except Error α) = .ok a ↔ x = .ok a := by
  cases x <;> exact Iff.rfl

theorem Record.row_spelled {r : Record} (safe : ∀ p ∈ r.valueParts, p.Safe w)
    (h : w.row r = .ok text) : Spelled w text (sources r.valueParts) := by
  simp only [Writer.row, bind_eq_ok, pure_eq_ok] at h
  obtain ⟨texts, each, rfl⟩ := h
  have values : Spelled w (Text.commaList texts) (sources r.valueParts) := by
    rw [valueParts, sources_flatMap, List.flatMap_def]
    exact .commaList (Spelled.each each fun entry he t ht =>
      Operand.spelled (fun p hp => safe p (List.mem_flatMap.2 ⟨entry, he, hp⟩)) ht)
  exact (values.opened "(" rfl).closed ")" rfl

namespace Query

variable {q : Query} {rows : List Record}

/-- The parts of the table that a statement writes to. -/
def tableParts (q : Query) : List Part := q.slots.table.toList.flatMap Ident.parts

theorem table_aligned (safe : ∀ p ∈ q.tableParts, p.Safe w) (h : w.table q = .ok text) :
    Aligned w text (sources q.tableParts) q.tableBindings := by
  unfold Writer.table at h
  unfold tableParts at safe ⊢
  unfold tableBindings
  split at h
  · next t given =>
    rw [given, Option.toList_some, List.flatMap_singleton, List.flatMap_singleton]
    exact Ident.aligned (fun p hp => safe p (by simpa [given] using hp)) h
  · cases h

/-- The parts of an insertion of rows, in the order of the text. -/
def insertParts (q : Query) (rows : List Record) : List Part :=
  q.tableParts ++ rows.flatMap Record.valueParts

/-- A row of defaults in place of rows that are all empty. -/
theorem emptyInsert_aligned {into : String} (nothing : ∀ r ∈ rows, r.entries = [])
    (named : Aligned w into (sources q.tableParts) q.tableBindings) :
    ∃ rest, w.dialect.emptyInsert into = "insert" ++ rest ∧
      Aligned w rest (sources (q.insertParts rows)) (q.insertBindings rows) := by
  have noParts : rows.flatMap Record.valueParts = [] := by
    rw [List.flatMap_eq_nil_iff]
    intro r hr
    rw [Record.valueParts, nothing r hr, List.flatMap_nil]
  have noBindings : rows.flatMap Record.bindings = [] := by
    rw [List.flatMap_eq_nil_iff]
    intro r hr
    rw [Record.bindings, nothing r hr, List.flatMap_nil]
  have named := named.opened " into " rfl
  have whole : ∀ words, Spelled w words [] → Aligned w (" into " ++ into ++ words)
      (sources (q.insertParts rows)) (q.insertBindings rows) := by
    intro words plain
    exact (named.followed plain).congr (by simp [insertParts, noParts])
      (by simp [insertBindings, noBindings])
  unfold Dialect.emptyInsert
  split
  · exact ⟨_, by simp [← String.append_assoc], whole " () values ()" (.word _ rfl)⟩
  · exact ⟨_, by simp [← String.append_assoc], whole " default values" (.word _ rfl)⟩

/-- An insertion starts with `insert`, and the rest is aligned with its bindings. -/
theorem insert_aligned (matching : Record.Matching rows) (table : ∀ p ∈ q.tableParts, p.Safe w)
    (safe : ∀ r ∈ rows, ∀ p ∈ r.parts, p.Safe w) (h : w.insert q rows = .ok text) :
    ∃ rest, text = "insert" ++ rest ∧
      Aligned w rest (sources (q.insertParts rows)) (q.insertBindings rows) := by
  simp only [Writer.insert, bind_eq_ok] at h
  obtain ⟨into, hinto, h⟩ := h
  have named := table_aligned table hinto
  cases rows with
  | nil =>
    obtain rfl := pure_eq_ok.1 h
    exact emptyInsert_aligned (fun r hr => nomatch hr) named
  | cons first others =>
    simp only at h
    split at h
    · next empty =>
      obtain rfl := pure_eq_ok.1 h
      have none : first.entries = [] := List.isEmpty_iff.1 empty
      exact emptyInsert_aligned (matching first rfl none) named
    · simp only [bind_eq_ok, pure_eq_ok] at h
      obtain ⟨tuples, htuples, rfl⟩ := h
      have columns : Spelled w (Text.commaList (first.columns.map w.dialect.wrap)) [] :=
        .names fun n hn => safe first List.mem_cons_self (.name n)
          (List.mem_append_left _ (List.mem_map_of_mem hn))
      have values : Aligned w (Text.commaList tuples)
          (sources ((first :: others).flatMap Record.valueParts))
          ((first :: others).flatMap Record.bindings) := by
        refine .of_parts ?_ (by simp)
        rw [sources_flatMap, List.flatMap_def]
        exact .commaList (Spelled.each htuples fun r hr t ht =>
          Record.row_spelled (fun p hp => safe r hr p (List.mem_append_right _ hp)) ht)
      have opened := (named.opened " into " rfl).closed " (" rfl
      have listed := (opened.followed columns).closed ") values " rfl
      refine ⟨_, ?_, (listed.append values).congr (by simp [insertParts]) rfl⟩
      simp [← String.append_assoc]

/-- An insertion that leaves out rows that are there already changes the words around the rest. -/
theorem insertOrIgnore_aligned (matching : Record.Matching rows)
    (table : ∀ p ∈ q.tableParts, p.Safe w)
    (safe : ∀ r ∈ rows, ∀ p ∈ r.parts, p.Safe w) (h : w.insertOrIgnore q rows = .ok text) :
    Aligned w text (sources (q.insertParts rows)) (q.insertBindings rows) := by
  simp only [Writer.insertOrIgnore, bind_eq_ok, lift_eq_ok] at h
  obtain ⟨insert, hinsert, h⟩ := h
  obtain ⟨rest, rfl, aligned⟩ := insert_aligned matching table safe hinsert
  unfold Dialect.insertOrIgnore at h
  split at h
  · cases h
    rw [Text.replaceFirst_leading _ _ (by decide)]
    exact aligned.opened _ rfl
  · cases h
    exact (aligned.opened "insert" rfl).closed " on conflict do nothing" rfl
  · cases h
    rw [Text.replaceFirst_leading _ _ (by decide)]
    exact aligned.opened _ rfl
  · cases h

theorem insertGetId_aligned {r : Record} {sequence : String}
    (table : ∀ p ∈ q.tableParts, p.Safe w) (safe : ∀ p ∈ r.parts, p.Safe w)
    (h : w.insertGetId q r sequence = .ok text) :
    Aligned w text (sources (q.insertParts [r])) (q.insertBindings [r]) := by
  simp only [Writer.insertGetId, bind_eq_ok, pure_eq_ok] at h
  obtain ⟨insert, hinsert, rfl⟩ := h
  have rows : ∀ s ∈ [r], ∀ p ∈ s.parts, p.Safe w := by
    intro s hs
    rw [List.mem_singleton.1 hs]
    exact safe
  obtain ⟨rest, rfl, aligned⟩ :=
    insert_aligned (Record.matching_singleton r) table rows hinsert
  have whole := aligned.opened "insert" rfl
  unfold Dialect.insertGetId
  split
  · next postgres =>
    have other : w.dialect ≠ .sqlServer := by
      rw [postgres]
      decide
    have key : Spelled w (w.dialect.quote sequence) [] :=
      .words (Dialect.inert_quote_of_no_bracket fun same => absurd same other).counted
    exact (whole.closed " returning " rfl).followed key
  · exact whole

/-- The parts of the insertion of a query's rows, in the order of the text. -/
def insertUsingParts (q source : Query) : List Part := q.tableParts ++ source.parts

theorem insertUsing_aligned {columns : List String} {source : Query} (formed : source.WellFormed)
    (table : ∀ p ∈ q.tableParts, p.Safe w) (names : ∀ n ∈ columns, (Part.name n).Safe w)
    (frame : ∀ p ∈ source.frame, p.Safe w)
    (predicates : ∀ p ∈ source.predicates, p.AlignedAlone w)
    (h : w.insertUsing q columns source = .ok text) :
    Aligned w text (sources (q.insertUsingParts source)) (q.insertUsingBindings source) := by
  simp only [Writer.insertUsing, bind_eq_ok, pure_eq_ok] at h
  obtain ⟨into, hinto, select, hselect, rfl⟩ := h
  have named := table_aligned table hinto
  have read := source.aligned formed frame predicates hselect
  have listed : Spelled w (if columns.isEmpty then ""
      else "(" ++ Text.commaList (columns.map w.dialect.wrap) ++ ") ") [] := by
    split
    · exact .word "" rfl
    · exact ((Spelled.names names).opened "(" rfl).closed ") " rfl
  have opened := (named.opened "insert into " rfl).closed " " rfl
  exact ((opened.followed listed).append read).congr (by simp [insertUsingParts]) rfl

end Query

/-! ## Changes of rows that are there already -/

theorem Record.assignments_spelled {entries : List (String × Operand)}
    (names : ∀ entry ∈ entries, (Part.name entry.1).Safe w)
    (values : ∀ entry ∈ entries, ∀ p ∈ entry.2.parts, p.Safe w) {pairs : List (String × String)}
    (h : w.assignments entries = .ok pairs) :
    List.Forall₂ (Spelled w) (pairs.map fun (c, v) => c ++ " = " ++ v)
      (entries.map fun entry => sources entry.2.parts) := by
  induction entries generalizing pairs with
  | nil =>
    obtain rfl := pure_eq_ok.1 h
    exact .nil
  | cons entry rest ih =>
    simp only [Writer.assignments, bind_eq_ok, pure_eq_ok] at h
    obtain ⟨value, hvalue, others, hothers, rfl⟩ := h
    have column := (names entry List.mem_cons_self).name_spelled
    have assigned := Operand.spelled (values entry List.mem_cons_self) hvalue
    have tail := ih (fun e he => names e (List.mem_cons_of_mem entry he))
      (fun e he => values e (List.mem_cons_of_mem entry he)) hothers
    exact .cons (assigned.preceded (column.closed " = " rfl)) tail

/-- Assignments of what the inserted row would have set have no placeholder, given ones have those
of their values. -/
theorem Record.conflictSets_spelled {update : List String} {inserted : String → String}
    {given : Record} {pairs : List (String × String)}
    (columns : ∀ n ∈ update, (Part.name n).Safe w)
    (wrapped : ∀ text, Spelled w text [] → Spelled w (inserted text) [])
    (safe : ∀ p ∈ given.parts, p.Safe w) (h : w.assignments given.entries = .ok pairs) :
    Spelled w (Dialect.conflictSets inserted (update.map w.dialect.wrap) pairs)
      (sources given.valueParts) := by
  have assigned := Record.assignments_spelled
    (fun entry he => safe (.name entry.1)
      (List.mem_append_left _ (List.mem_map_of_mem (List.mem_map_of_mem he))))
    (fun entry he p hp => safe p (List.mem_append_right _ (List.mem_flatMap.2 ⟨entry, he, hp⟩))) h
  have taken : List.Forall₂ (Spelled w)
      ((update.map w.dialect.wrap).map fun c => c ++ " = " ++ inserted c)
      (update.map fun _ => []) := by
    induction update with
    | nil => exact .nil
    | cons n ns ih =>
      have column := (columns n List.mem_cons_self).name_spelled
      exact .cons ((column.closed " = " rfl).followed (wrapped _ column))
        (ih fun m hm => columns m (List.mem_cons_of_mem n hm))
  have none : (update.map fun _ => ([] : List Source)).flatten = [] := by simp
  have all := Spelled.commaList (List.rel_append taken assigned)
  rw [List.flatten_append, none, List.nil_append] at all
  rw [valueParts, sources_flatMap, List.flatMap_def]
  exact all

/-- The parts of an insertion that changes rows, in the order of the text. -/
def Query.upsertParts (q : Query) (rows : List Record) (given : Record) : List Part :=
  q.insertParts rows ++ given.valueParts

theorem Query.upsert_aligned {q : Query} {rows : List Record} {uniqueBy update : List String}
    {given : Record} (matching : Record.Matching rows) (table : ∀ p ∈ q.tableParts, p.Safe w)
    (safe : ∀ r ∈ rows, ∀ p ∈ r.parts, p.Safe w)
    (keys : ∀ n ∈ uniqueBy, (Part.name n).Safe w) (columns : ∀ n ∈ update, (Part.name n).Safe w)
    (assigned : ∀ p ∈ given.parts, p.Safe w)
    (h : w.upsert q rows uniqueBy update given = .ok text) :
    Aligned w text (sources (q.upsertParts rows given)) (q.upsertBindings rows given) := by
  simp only [Writer.upsert, bind_eq_ok, lift_eq_ok] at h
  obtain ⟨insert, hinsert, pairs, hpairs, h⟩ := h
  obtain ⟨rest, rfl, aligned⟩ := insert_aligned matching table safe hinsert
  have inserted := aligned.opened "insert" rfl
  have keyed : Spelled w (Text.commaList (uniqueBy.map w.dialect.wrap)) [] := .names keys
  have sets : ∀ f : String → String, (∀ text, Spelled w text [] → Spelled w (f text) []) →
      Aligned w (Dialect.conflictSets f (update.map w.dialect.wrap) pairs)
        (sources given.valueParts) given.bindings := fun f wrapped =>
    .of_parts (Record.conflictSets_spelled columns wrapped assigned hpairs) (by simp)
  have excluded : ∀ text, Spelled w text [] →
      Spelled w (w.dialect.quote "excluded" ++ "." ++ text) [] := by
    intro text written
    have row : Spelled w (w.dialect.quote "excluded") [] := .own_name (by decide)
    exact (row.closed "." rfl).followed written
  have conflict : Aligned w ("insert" ++ rest ++ " on conflict (" ++
      Text.commaList (uniqueBy.map w.dialect.wrap) ++ ") do update set " ++
      Dialect.conflictSets (fun c => w.dialect.quote "excluded" ++ "." ++ c)
        (update.map w.dialect.wrap) pairs)
      (sources (q.upsertParts rows given)) (q.upsertBindings rows given) := by
    have opened := (inserted.closed " on conflict (" rfl).followed keyed
    have ready := opened.closed ") do update set " rfl
    exact (ready.append (sets _ excluded)).congr (by simp [upsertParts]) rfl
  unfold Dialect.upsert at h
  split at h
  · cases h
    have values : ∀ text, Spelled w text [] → Spelled w ("values(" ++ text ++ ")") [] :=
      fun text written => (written.opened "values(" rfl).closed ")" rfl
    have ready := inserted.closed " on duplicate key update " rfl
    exact (ready.append (sets _ values)).congr (by simp [upsertParts]) rfl
  · cases h
    exact conflict
  · cases h
    exact conflict
  · cases h

end SqlFragments
