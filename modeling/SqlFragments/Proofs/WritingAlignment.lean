import SqlFragments.Compilation
import SqlFragments.Proofs.Remembering
import SqlFragments.Proofs.UpdateAlignment

/-!
# Writing statements and their bindings

A `Writing` is a statement that changes rows, as a compiler comes to it from a request: rows are in
the columns of the first, and a column that is changed by an amount is an assignment of an
expression (`Writing.ofRequest`). Each of them is aligned with the bindings that are collected for
it, if the parts around its predicates are safe and each predicate is aligned on its own
(`Writing.aligned`).
-/

namespace SqlFragments

/-- Also sets a column to its own value changed by an amount. -/
def Record.stepped (r : Record) (d : Dialect) (id : Identity) (column : String) (down : Bool)
    (amount : Int64) : Record :=
  r.setFirst column (.inline (.text id (.native []) (Writer.stepped d column down amount)))

/-- A statement that changes rows. -/
inductive Writing where
  | insert (q : Query) (rows : List Record)
  | insertOrIgnore (q : Query) (rows : List Record)
  | insertGetId (q : Query) (row : Record) (sequence : String)
  | insertUsing (q : Query) (columns : List String) (source : Query)
  | update (q : Query) (values : Record)
  | step (q : Query) (id : Identity) (column : String) (down : Bool) (amount : Int64)
    (extra : Record)
  | upsert (q : Query) (rows : List Record) (uniqueBy changed : List String) (given : Record)
  | delete (q : Query)

namespace Writing

/-- The text of the statement. -/
def write {m : Type → Type} [Monad m] [MonadExceptOf Error m] (x : Writing) (w : Writer m) :
    m String :=
  match x with
  | insert q rows => w.insert q rows
  | insertOrIgnore q rows => w.insertOrIgnore q rows
  | insertGetId q row sequence => w.insertGetId q row sequence
  | insertUsing q columns source => w.insertUsing q columns source
  | update q values => w.update q values
  | step q id column down amount extra =>
    w.update q (extra.stepped w.dialect id column down amount)
  | upsert q rows uniqueBy changed given => w.upsert q rows uniqueBy changed given
  | delete q => w.delete q

/-- The bindings that are collected for the statement. -/
def bindings (d : Dialect) : Writing → List Binding
  | insert q rows | insertOrIgnore q rows => q.insertBindings rows
  | insertGetId q row _ => q.insertBindings [row]
  | insertUsing q _ source => q.insertUsingBindings source
  | update q values => q.updateBindings values
  | step q id column down amount extra =>
    q.updateBindings (extra.stepped d id column down amount)
  | upsert q rows _ _ given => q.upsertBindings rows given
  | delete q => q.deleteBindings

/-- The parts of the statement, in the order of the text. -/
def parts (d : Dialect) : Writing → List Part
  | insert q rows | insertOrIgnore q rows => q.insertParts rows
  | insertGetId q row _ => q.insertParts [row]
  | insertUsing q _ source => q.insertUsingParts source
  | update q values => q.updateParts values
  | step q id column down amount extra => q.updateParts (extra.stepped d id column down amount)
  | upsert q rows _ _ given => q.upsertParts rows given
  | delete q => q.deleteParts

/-- The parts outside predicates, columns included. -/
def frame : Writing → List Part
  | insert q rows | insertOrIgnore q rows => q.tableParts ++ rows.flatMap Record.parts
  | insertGetId q row _ => q.tableParts ++ row.parts
  | insertUsing q columns source => q.tableParts ++ columns.map Part.name ++ source.frame
  | update q values => q.targetFrame ++ values.parts
  | step q _ column _ _ extra => q.targetFrame ++ .name column :: extra.parts
  | upsert q rows uniqueBy changed given =>
    q.tableParts ++ rows.flatMap Record.parts ++ (uniqueBy ++ changed).map Part.name ++ given.parts
  | delete q => q.targetFrame

/-- The single predicates of the statement. -/
def predicates : Writing → List Predicate
  | insertUsing _ _ source => source.predicates
  | update q _ | step q _ _ _ _ _ | delete q => q.targetPredicates
  | insert _ _ | insertOrIgnore _ _ | insertGetId _ _ _ | upsert _ _ _ _ _ => []

/-- The query that the statement is made for. -/
def target : Writing → Query
  | insert q _ | insertOrIgnore q _ | insertGetId q _ _ | insertUsing q _ _ | update q _
  | step q _ _ _ _ _ | upsert q _ _ _ _ | delete q => q

/-- The queries that the statement reads besides. -/
def others : Writing → List Query
  | insertUsing _ _ source => [source]
  | insert _ _ | insertOrIgnore _ _ | insertGetId _ _ _ | update _ _ | step _ _ _ _ _ _
  | upsert _ _ _ _ _ | delete _ => []

/-- The expressions among the rows and the assigned values. -/
def extra (d : Dialect) : Writing → List Expression
  | insert _ rows | insertOrIgnore _ rows => rows.flatMap Record.expressions
  | insertGetId _ row _ => row.expressions
  | update _ values => values.expressions
  | step _ id column down amount extra => (extra.stepped d id column down amount).expressions
  | upsert _ rows _ _ given => rows.flatMap Record.expressions ++ given.expressions
  | insertUsing _ _ _ | delete _ => []

/-- What a compiler has seen to: rows are in the columns of the first, and queries are built. -/
def Prepared : Writing → Prop
  | insert _ rows | insertOrIgnore _ rows | upsert _ rows _ _ _ =>
    ∃ given, Record.normalizeRows given = .ok rows
  | insertUsing _ _ source => source.Built
  | insertGetId _ _ _ | update _ _ | step _ _ _ _ _ _ | delete _ => True

/-- What a compiler writes for a request, if the request changes rows. A new expression gets the
identity `id`. -/
def ofRequest (q : Query) (id : Identity) : Request → Except Error (Option Writing)
  | .select | .hasRows | .aggregate _ _ | .truncate => .ok none
  | .insert rows => do return some (insert q (← Record.normalizeRows rows))
  | .insertOrIgnore rows => do return some (insertOrIgnore q (← Record.normalizeRows rows))
  | .insertGetId row sequence => .ok (some (insertGetId q row (sequence.getD "id")))
  | .insertUsing columns source => .ok (some (insertUsing q columns source))
  | .update values => .ok (some (update q values))
  | .step column down amount extra => .ok (some (step q id column down amount extra))
  | .upsert rows uniqueBy changed given =>
    if changed.isEmpty && given.isEmpty then do
      return some (insertOrIgnore q (← Record.normalizeRows rows))
    else do return some (upsert q (← Record.normalizeRows rows) uniqueBy changed given)
  | .delete => .ok (some (delete q))

end Writing

/-! ## Alignment -/

variable {w : Writer (Except Error)}

/-- The parts of a record with a column in front are those of the value and of the record. -/
theorem Record.mem_parts_setFirst {r : Record} {column : String} {value : Operand} {p : Part}
    (h : p ∈ (r.setFirst column value).parts) :
    p = .name column ∨ p ∈ value.parts ∨ p ∈ r.parts := by
  have kept : ∀ entry ∈ r.entries.filter (fun entry => entry.1 != column), entry ∈ r.entries :=
    fun entry he => (List.mem_filter.1 he).1
  rcases List.mem_append.1 h with name | part
  · obtain ⟨column', hcolumn, rfl⟩ := List.mem_map.1 name
    obtain ⟨entry, he, rfl⟩ := List.mem_map.1 hcolumn
    rcases List.mem_cons.1 he with rfl | other
    · exact .inl rfl
    · exact .inr (.inr (List.mem_append_left _
        (List.mem_map_of_mem (List.mem_map_of_mem (kept entry other)))))
  · obtain ⟨entry, he, hp⟩ := List.mem_flatMap.1 part
    rcases List.mem_cons.1 he with rfl | other
    · exact .inr (.inl hp)
    · exact .inr (.inr (List.mem_append_right _ (List.mem_flatMap.2 ⟨entry, kept entry other, hp⟩)))

/-- A column changed by an amount is written without placeholders. -/
theorem Record.stepped_safe {d : Dialect} {ctx : Context} {tables : Tables} {r : Record}
    (id : Identity) {column : String} (down : Bool) (amount : Int64)
    (name : (Part.name column).Safe (.reading d ctx tables))
    (safe : ∀ p ∈ r.parts, p.Safe (.reading d ctx tables)) :
    ∀ p ∈ (r.stepped d id column down amount).parts, p.Safe (.reading d ctx tables) := by
  intro p hp
  rcases Record.mem_parts_setFirst hp with rfl | changed | other
  · exact name
  · obtain rfl := List.mem_singleton.1 changed
    have sign : Quote.Plain (if down then " - " else " + ").toList := by cases down <;> decide
    have spelled := (name.name_spelled.followed (.plain sign)).followed
      (.plain (Quote.plain_intText amount.toInt))
    rintro text ⟨⟩
    exact spelled.balanced
  · exact safe p other

namespace Writing

section Writers

variable {m n : Type → Type} [Monad m] [MonadExceptOf Error m] [Monad n] [MonadExceptOf Error n]
  {S : Simulation m n} {w : Writer m} {v : Writer n}

/-- A statement asks for no expression but those in its queries, its rows and its assigned values. -/
theorem writersOn_write {P : Expression → Prop} (h : S.WritersOn P w v) {x : Writing}
    (within : ∀ e ∈ (x.target :: x.others).flatMap Query.scan ++ x.extra w.dialect, P e) :
    S.rel (x.write w) (x.write v) := by
  simp only [List.flatMap_cons, List.forall_mem_append] at within
  obtain ⟨⟨target, others⟩, extra⟩ := within
  cases x with
  | insert q rows => exact h.insert target extra
  | insertOrIgnore q rows => exact h.insertOrIgnore target extra
  | insertGetId q row sequence => exact h.insertGetId target extra sequence
  | insertUsing q columns source =>
    rw [Writing.others, List.flatMap_singleton] at others
    exact h.insertUsing target columns others
  | update q values => exact h.update target extra
  | step q id column down amount extra' =>
    simp only [write, ← h.dialect]
    exact h.update target extra
  | upsert q rows uniqueBy changed given =>
    simp only [Writing.extra, List.forall_mem_append] at extra
    exact h.upsert target extra.1 uniqueBy changed extra.2
  | delete q => exact h.delete target

theorem writers_write (h : S.Writers w v) (x : Writing) : S.rel (x.write w) (x.write v) :=
  writersOn_write h.everywhere fun _ _ => trivial

end Writers

/-- Statement by statement, the text is aligned with the bindings. -/
theorem aligned {d : Dialect} {ctx : Context} {tables : Tables} {x : Writing} {text : String}
    (prepared : x.Prepared) (safe : ∀ part ∈ x.frame, part.Safe (.reading d ctx tables))
    (alone : ∀ p ∈ x.predicates, p.AlignedAlone (.reading d ctx tables))
    (h : x.write (Writer.reading d ctx tables) = .ok text) :
    Aligned (.reading d ctx tables) text (sources (x.parts d)) (x.bindings d) := by
  cases x with
  | insert q rows =>
    obtain ⟨given, normal⟩ := prepared
    simp only [frame, List.forall_mem_append, List.forall_mem_flatMap] at safe
    obtain ⟨rest, rfl, aligned⟩ :=
      Query.insert_aligned (Record.matching_of_normal normal) safe.1 safe.2 h
    exact aligned.opened "insert" rfl
  | insertOrIgnore q rows =>
    obtain ⟨given, normal⟩ := prepared
    simp only [frame, List.forall_mem_append, List.forall_mem_flatMap] at safe
    exact Query.insertOrIgnore_aligned (Record.matching_of_normal normal) safe.1 safe.2 h
  | insertGetId q row sequence =>
    exact Query.insertGetId_aligned (fun p hp => safe p (List.mem_append_left _ hp))
      (fun p hp => safe p (List.mem_append_right _ hp)) h
  | insertUsing q columns source =>
    simp only [frame, List.forall_mem_append] at safe
    obtain ⟨⟨table, names⟩, frame⟩ := safe
    exact Query.insertUsing_aligned (Query.Built.wellFormed prepared) table
      (fun n hn => names _ (List.mem_map_of_mem hn)) frame alone h
  | update q values =>
    exact Query.update_aligned (fun p hp => safe p (List.mem_append_left _ hp))
      (fun p hp => safe p (List.mem_append_right _ hp)) alone h
  | step q id column down amount extra =>
    simp only [frame, List.forall_mem_append, List.forall_mem_cons] at safe
    obtain ⟨frame, name, others⟩ := safe
    exact Query.update_aligned frame (Record.stepped_safe id down amount name others) alone h
  | upsert q rows uniqueBy changed given =>
    obtain ⟨_, normal⟩ := prepared
    simp only [frame, List.map_append, List.forall_mem_append, List.forall_mem_flatMap] at safe
    obtain ⟨⟨⟨table, rows⟩, keys, columns⟩, assigned⟩ := safe
    exact Query.upsert_aligned (Record.matching_of_normal normal) table rows
      (fun n hn => keys _ (List.mem_map_of_mem hn))
      (fun n hn => columns _ (List.mem_map_of_mem hn)) assigned h
  | delete q => exact Query.delete_aligned safe alone h

end Writing

end SqlFragments
