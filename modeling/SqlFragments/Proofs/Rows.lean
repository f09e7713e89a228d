import SqlFragments.Proofs.Evaluations
import SqlFragments.Proofs.Ordered

/-!
# Rows with the columns of the first

A record that was made by setting columns one after another has each of them once, in the order in
which they were first set, and holds the last value of each (`Record.columns_ofList`,
`Record.get?_ofList`). Such rows can be inserted together exactly when all have the columns of the
first, in whatever order: that a row has as many columns and lacks none of them is enough, since no
column comes twice (`Record.fits_iff`).

So rows are put in order by reading each in the columns of the first, or the first row that has other
columns is refused (`Record.normalizeRows_cases`), and what an insertion brings is read row by row,
in the columns of the first (`Compiler.rows_in_columns_of_first`).
-/

namespace SqlFragments

namespace Record

/-! ## Records made by settings -/

/-- The columns are those that were set, in the order in which they were first set. -/
theorem columns_ofList (settings : List (String × Operand)) :
    (ofList settings).columns = (settings.map Prod.fst).eraseDups := by
  induction settings using List.reverseRecOn with
  | nil => rfl
  | append_singleton settings entry ih =>
    obtain ⟨column, value⟩ := entry
    rw [ofList_concat, columns_set, ih, List.map_append, List.eraseDups_append]
    by_cases known : column ∈ settings.map Prod.fst
    · simp [List.removeAll, known]
    · simp [List.removeAll, known, List.eraseDups_cons]

/-- The value of a column is the last that was set. -/
theorem get?_ofList (settings : List (String × Operand)) (column : String) :
    (ofList settings).get? column = settings.reverse.lookup column := by
  induction settings using List.reverseRecOn with
  | nil => rfl
  | append_singleton settings entry ih =>
    obtain ⟨last, value⟩ := entry
    rw [ofList_concat, List.reverse_concat, List.lookup_cons]
    by_cases same : column = last
    · rw [same, get?_set_self, beq_self_eq_true]
    · rw [get?_set_ne _ _ same, ih, beq_false_of_ne same]

/-! ## Rows that fit -/

variable {r : Record} {columns : List String} {rows : List Record}

theorem isSome_get?_iff {column : String} : (r.get? column).isSome ↔ column ∈ r.columns :=
  isSome_lookup_iff

/-- The record sets exactly these columns, in whatever order. -/
def SameColumns (columns : List String) (r : Record) : Prop :=
  ∀ column, column ∈ r.columns ↔ column ∈ columns

/-- The record has as many columns as are wanted, and all that are wanted. -/
def Fits (columns : List String) (r : Record) : Prop :=
  r.size = columns.length ∧ ∀ column ∈ columns, column ∈ r.columns

instance (columns : List String) (r : Record) : Decidable (r.Fits columns) :=
  inferInstanceAs (Decidable (_ ∧ _))

/-- Of distinct columns none is left over when as many are wanted and none is missing. -/
theorem fits_iff (once : columns.Nodup) : r.Fits columns ↔ r.SameColumns columns := by
  have size : r.size = r.columns.length := (List.length_map _).symm
  constructor
  · rintro ⟨wide, within⟩ column
    have same : columns.Perm r.columns :=
      (once.subperm within).perm_of_length_le (by rw [← size, wide])
    exact same.mem_iff.symm
  · intro same
    have perm : r.columns.Perm columns := (List.perm_ext_iff_of_nodup r.distinct once).2 same
    exact ⟨size.trans perm.length_eq, fun column wanted => (same column).2 wanted⟩

/-- The values of the columns, in their order. -/
def valuesIn (columns : List String) (r : Record) : List Operand := columns.filterMap r.get?

/-- The values of the columns with their columns, in their order. -/
def settingsIn (columns : List String) (r : Record) : List (String × Operand) :=
  columns.filterMap fun column => (r.get? column).map (column, ·)

/-- The record with the columns in another order. -/
def inOrder (columns : List String) (r : Record) : Record := ofList (r.settingsIn columns)

theorem columns_settingsIn (columns : List String) (r : Record) :
    (r.settingsIn columns).map (·.1) = columns.filter (· ∈ r.columns) := by
  induction columns with
  | nil => rfl
  | cons column columns ih =>
    rw [settingsIn] at ih ⊢
    rw [List.filterMap_cons, List.filter_cons]
    by_cases known : column ∈ r.columns
    · obtain ⟨value, found⟩ := Option.isSome_iff_exists.1 (isSome_get?_iff.2 known)
      simp [found, known, ih]
    · have unset : r.get? column = none := by
        rwa [← isSome_get?_iff, Option.not_isSome_iff_eq_none] at known
      simp [unset, known, ih]

/-- Distinct columns are set one after the other. -/
theorem entries_inOrder (once : columns.Nodup) (r : Record) :
    (r.inOrder columns).entries = r.settingsIn columns := by
  refine ofList_of_nodup ?_
  rw [columns_settingsIn]
  exact once.filter _

theorem values_inOrder (once : columns.Nodup) (r : Record) :
    (r.inOrder columns).entries.map Prod.snd = r.valuesIn columns := by
  rw [entries_inOrder once, settingsIn, valuesIn, List.map_filterMap]
  refine List.filterMap_congr fun column _ => ?_
  cases r.get? column <;> rfl

theorem bindings_inOrder (once : columns.Nodup) (r : Record) :
    (r.inOrder columns).bindings = (r.valuesIn columns).flatMap Operand.bindings := by
  rw [← values_inOrder once, List.flatMap_map]
  rfl

theorem columns_inOrder (once : columns.Nodup) (within : ∀ column ∈ columns, column ∈ r.columns) :
    (r.inOrder columns).columns = columns := by
  rw [Record.columns, entries_inOrder once, columns_settingsIn, List.filter_eq_self]
  exact fun column wanted => decide_eq_true (within column wanted)

/-- A record that fits has the same values in another order. -/
theorem get?_inOrder (once : columns.Nodup) (same : r.SameColumns columns) (column : String) :
    (r.inOrder columns).get? column = r.get? column := by
  have read : ∀ columns : List String, (r.settingsIn columns).lookup column =
      if column ∈ columns then r.get? column else none := by
    intro columns
    induction columns with
    | nil => rfl
    | cons other columns ih =>
      rw [settingsIn] at ih ⊢
      rw [List.filterMap_cons]
      by_cases same : column = other
      · subst same
        cases found : r.get? column with
        | none => simp [found] at ih ⊢; exact ih
        | some value => simp
      · cases found : r.get? other with
        | none => simp [same, ih]
        | some value => simp [List.lookup_cons, beq_false_of_ne same, same, ih]
  rw [get?, entries_inOrder once, read]
  split
  · rfl
  · next absent =>
    have unset : column ∉ r.columns := fun known => absent ((same column).1 known)
    rw [← isSome_get?_iff, Option.not_isSome_iff_eq_none] at unset
    exact unset.symm

/-! ## Putting rows in order -/

/-- Why a record does not fit: it has more or fewer columns, or it lacks one that is wanted. -/
def misfit (row : Nat) (columns : List String) (r : Record) : Option Fault :=
  if r.size = columns.length then
    (columns.find? fun column => column ∉ r.columns).map (.missingColumn row)
  else some (.rowWidth row r.size columns.length)

theorem misfit_eq_none_iff {row : Nat} : r.misfit row columns = none ↔ r.Fits columns := by
  unfold misfit Fits
  split
  · next wide => simp [wide]
  · next other => simp [other]

/-- Reading columns fails at the first that is missing. -/
theorem pick_eq (row : Nat) (r : Record) (columns : List String) :
    r.pick row columns =
      match columns.find? fun column => column ∉ r.columns with
      | some column => .error (.invalid (.missingColumn row column))
      | none => .ok (r.settingsIn columns) := by
  induction columns with
  | nil => rfl
  | cons column columns ih =>
    rw [pick, List.find?_cons]
    cases found : r.get? column with
    | none =>
      have absent : column ∉ r.columns := by
        rw [← isSome_get?_iff, found]
        exact Bool.false_ne_true
      simp [absent]
    | some value =>
      have known : column ∈ r.columns := by
        rw [← isSome_get?_iff, found]
        rfl
      simp only [known, not_true_eq_false, decide_false, ih, settingsIn, List.filterMap_cons, found,
        Option.map_some]
      cases columns.find? fun column => column ∉ r.columns <;> rfl

/-- A row is put in order if it fits, and refused for why it does not. -/
theorem reorder_eq (row : Nat) (columns : List String) (r : Record) :
    r.reorder row columns =
      match r.misfit row columns with
      | some fault => .error (.invalid fault)
      | none => .ok (r.inOrder columns) := by
  unfold reorder misfit
  split
  · rw [pick_eq]
    cases columns.find? fun column => column ∉ r.columns <;> rfl
  · rfl

/-- All rows fit and are put in order, or one does not, those before it do, and it is refused. -/
theorem reorderAll_cases (row : Nat) (columns : List String) (rows : List Record) :
    (∀ r ∈ rows, r.Fits columns) ∧
        reorderAll columns row rows = .ok (rows.map (inOrder columns)) ∨
      ∃ before r after fault, rows = before ++ r :: after ∧ (∀ s ∈ before, s.Fits columns) ∧
        r.misfit (row + before.length) columns = some fault ∧
        reorderAll columns row rows = .error (.invalid fault) := by
  induction rows generalizing row with
  | nil => exact .inl ⟨List.forall_mem_nil _, rfl⟩
  | cons r rows ih =>
    rw [reorderAll, reorder_eq]
    cases why : r.misfit row columns with
    | some fault => exact .inr ⟨[], r, rows, fault, rfl, List.forall_mem_nil _, why, rfl⟩
    | none =>
      -- A row that fits leaves it to the rows behind it, which are numbered on from it.
      have fits : r.Fits columns := misfit_eq_none_iff.1 why
      rcases ih (row + 1) with ⟨all, ordered⟩ | ⟨before, s, after, fault, rfl, earlier, why, refused⟩
      · rw [ordered]
        exact .inl ⟨List.forall_mem_cons.2 ⟨fits, all⟩, rfl⟩
      · rw [refused]
        refine .inr ⟨r :: before, s, after, fault, rfl, List.forall_mem_cons.2 ⟨fits, earlier⟩, ?_,
          rfl⟩
        rwa [List.length_cons, Nat.add_comm before.length, ← Nat.add_assoc]

/-- The columns of the first row. -/
def firstColumns : List Record → List String
  | [] => []
  | first :: _ => first.columns

theorem nodup_firstColumns (rows : List Record) : (firstColumns rows).Nodup := by
  cases rows with
  | nil => exact List.nodup_nil
  | cons first rest => exact first.distinct

/-- **Rows are put in order.** All rows have the columns of the first and are read in them, or a row
has others, those before it have not, and the fault names its place. -/
theorem normalizeRows_cases (rows : List Record) :
    (∀ r ∈ rows, r.SameColumns (firstColumns rows)) ∧
        normalizeRows rows = .ok (rows.map (inOrder (firstColumns rows))) ∨
      ∃ before r after fault, rows = before ++ r :: after ∧
        (∀ s ∈ before, s.SameColumns (firstColumns rows)) ∧
        ¬ r.SameColumns (firstColumns rows) ∧
        r.misfit before.length (firstColumns rows) = some fault ∧
        normalizeRows rows = .error (.invalid fault) := by
  rcases rows with _ | ⟨first, rest⟩
  · exact .inl ⟨List.forall_mem_nil _, rfl⟩
  · have once : first.columns.Nodup := first.distinct
    rw [normalizeRows]
    rcases reorderAll_cases 0 first.columns (first :: rest) with
      ⟨all, ordered⟩ | ⟨before, r, after, fault, split, earlier, why, refused⟩
    · exact .inl ⟨fun r member => (fits_iff once).1 (all r member), ordered⟩
    · rw [Nat.zero_add] at why
      refine .inr ⟨before, r, after, fault, split, fun s member => ?_, fun same => ?_, why, refused⟩
      · exact (fits_iff once).1 (earlier s member)
      · cases why.symm.trans (misfit_eq_none_iff.2 ((fits_iff once).2 same))

end Record

/-- The row that a fault is about. -/
def Fault.row? : Fault → Option Nat
  | rowWidth row _ _ | missingColumn row _ => some row
  | _ => none

theorem Record.row?_of_misfit {row : Nat} {columns : List String} {r : Record} {fault : Fault}
    (why : r.misfit row columns = some fault) : fault.row? = some row := by
  unfold misfit at why
  split at why
  · obtain ⟨column, -, rfl⟩ := Option.map_eq_some_iff.1 why
    rfl
  · cases why
    rfl

/-! ## Inserted rows -/

/-- The rows that the request inserts, if it inserts rows that it is given. -/
def Request.inserted? : Request → Option (List Record)
  | insert rows | insertOrIgnore rows | upsert rows _ _ _ => some rows
  | _ => none

/-- The rows that the statement inserts, if it is given them. -/
def Writing.inserted? : Writing → Option (List Record)
  | insert _ rows | insertOrIgnore _ rows | upsert _ rows _ _ _ => some rows
  | _ => none

namespace Form

variable (q : Query) (id : Identity) {r : Request} {rows normal : List Record}

theorem of_insert (ordered : Record.normalizeRows rows = .ok normal) :
    ofRequest q id (.insert rows) = .ok (some (.writing (.insert q normal))) := by
  simp only [ofRequest, Writing.ofRequest, ordered]
  rfl

/-- Rows are inserted in the order into which they are put. -/
theorem of_inserted (h : r.inserted? = some rows) (ordered : Record.normalizeRows rows = .ok normal) :
    ∃ x, ofRequest q id r = .ok (some (.writing x)) ∧ x.inserted? = some normal ∧ x.target = q := by
  cases r with
  | insert =>
    cases h
    exact ⟨_, of_insert q id ordered, rfl, rfl⟩
  | insertOrIgnore =>
    cases h
    refine ⟨.insertOrIgnore q normal, ?_, rfl, rfl⟩
    simp only [ofRequest, Writing.ofRequest, ordered]
    rfl
  | upsert rows uniqueBy changed given =>
    cases h
    simp only [ofRequest, Writing.ofRequest, ordered]
    split
    · exact ⟨.insertOrIgnore q normal, rfl, rfl, rfl⟩
    · exact ⟨.upsert q normal uniqueBy changed given, rfl, rfl, rfl⟩
  | select | hasRows | aggregate | insertGetId | insertUsing | update | step | delete | truncate =>
    cases h

/-- Rows that cannot be put in order are not inserted. -/
theorem of_unordered {e : Error} (h : r.inserted? = some rows)
    (refused : Record.normalizeRows rows = .error e) : ofRequest q id r = .error e := by
  cases r with
  | insert | insertOrIgnore =>
    cases h
    simp only [ofRequest, Writing.ofRequest, refused]
    rfl
  | upsert =>
    cases h
    simp only [ofRequest, Writing.ofRequest, refused]
    split <;> rfl
  | select | hasRows | aggregate | insertGetId | insertUsing | update | step | delete | truncate =>
    cases h

end Form

namespace Compiler

/-- An insertion is refused when its rows cannot be put in order, before anything else. -/
theorem answer_of_unordered (c : Compiler) (q : Query) {r : Request} {rows : List Record} {e : Error}
    (w : Workspace) (h : r.inserted? = some rows)
    (refused : Record.normalizeRows rows = .error e) : (c.compile q r w).1.answer = .error e := by
  rw [compile_eq, Form.of_unordered q w.next h refused]

/-- An insertion has the values of its table, and then those of its rows in the order of columns into
which they are put. -/
theorem bindings_of_insert (c : Compiler) (q : Query) {rows : List Record} {columns : List String}
    (w : Workspace) (once : columns.Nodup)
    (ordered : Record.normalizeRows rows = .ok (rows.map (Record.inOrder columns)))
    {s : Statement} (answered : (c.compile q (.insert rows) w).1.answer = .ok (.one s)) :
    s.bindings = ((Binding.evaluateAll (q.tableBindings ++ rows.flatMap fun r =>
      (r.valuesIn columns).flatMap Operand.bindings)).run w.cells).1 := by
  rw [answer_of_form (Form.of_insert q w.next ordered)] at answered
  obtain ⟨_, answered, ⟨⟩⟩ := map_eq_ok.1 answered
  rw [Form.bindings_of_answer answered, Request.charge_cells]
  have rowwise : q.insertBindings (rows.map (Record.inOrder columns)) = q.tableBindings ++
      rows.flatMap fun r => (r.valuesIn columns).flatMap Operand.bindings := by
    rw [Query.insertBindings, List.flatMap_map]
    simp only [Record.bindings_inOrder once]
  rw [← rowwise]
  rfl

/-- **Rows are read in the columns of the first.** A row has the columns that were set in it, each
once and in the order in which they were first set, and the last value of each. Rows made so can be
put in order exactly if all have the columns of the first; then each has them in the order of the
first, with its own values. If not, the fault names the first row that has other columns, and an
insertion of the rows is refused with it. The values of an insertion are those of its table and then
those of the rows, one row after another, in the columns of the first. -/
theorem rows_in_columns_of_first (c : Compiler) (q : Query)
    (given : List (List (String × Operand))) (w : Workspace) :
    let rows := given.map Record.ofList
    let columns := Record.firstColumns rows
    (∀ settings ∈ given, let r := Record.ofList settings
      r.columns = (settings.map Prod.fst).eraseDups ∧ r.columns.Nodup ∧
        ∀ column, r.get? column = settings.reverse.lookup column) ∧
    ((∃ normal, Record.normalizeRows rows = .ok normal) ↔ ∀ r ∈ rows, r.SameColumns columns) ∧
    (∀ normal, Record.normalizeRows rows = .ok normal → List.Forall₂ (fun r out =>
      out.columns = columns ∧ ∀ column, out.get? column = r.get? column) rows normal) ∧
    (∀ e, Record.normalizeRows rows = .error e →
      (∃ before r after fault, rows = before ++ r :: after ∧
        (∀ s ∈ before, s.SameColumns columns) ∧ ¬ r.SameColumns columns ∧ e = .invalid fault ∧
          fault.row? = some before.length) ∧
        (c.compile q (.insert rows) w).1.answer = .error e) ∧
    ∀ s, (c.compile q (.insert rows) w).1.answer = .ok (.one s) →
      s.bindings = ((Binding.evaluateAll (q.tableBindings ++ rows.flatMap fun r =>
        (r.valuesIn columns).flatMap Operand.bindings)).run w.cells).1 := by
  intro rows columns
  have once : columns.Nodup := Record.nodup_firstColumns rows
  refine ⟨fun settings _ => ⟨Record.columns_ofList settings, (Record.ofList settings).distinct,
    Record.get?_ofList settings⟩, ?_⟩
  rcases Record.normalizeRows_cases rows with
    ⟨all, ordered⟩ | ⟨before, r, after, fault, split, earlier, other, why, refused⟩
  · refine ⟨⟨fun _ => all, fun _ => ⟨_, ordered⟩⟩, fun normal ok => ?_, fun e failed => ?_,
      fun s answered => ?_⟩
    · cases ordered.symm.trans ok
      refine List.forall₂_map_right_iff.2 (List.forall₂_same.2 fun r member => ⟨?_, ?_⟩)
      · exact Record.columns_inOrder once fun column wanted => (all r member column).2 wanted
      · exact Record.get?_inOrder once (all r member)
    · cases ordered.symm.trans failed
    · exact c.bindings_of_insert q w once ordered answered
  · refine ⟨⟨fun made => ?_, fun all => ?_⟩, fun normal ok => ?_, fun e failed => ?_,
      fun s answered => ?_⟩
    · obtain ⟨normal, ok⟩ := made
      cases refused.symm.trans ok
    · exact absurd (all r (split ▸ List.mem_append_right _ List.mem_cons_self)) other
    · cases refused.symm.trans ok
    · cases refused.symm.trans failed
      exact ⟨⟨before, r, after, fault, split, earlier, other, rfl, Record.row?_of_misfit why⟩,
        c.answer_of_unordered q w rfl refused⟩
    · cases (c.answer_of_unordered q w rfl refused).symm.trans answered

/-- A row whose columns are not those of the first is refused at its place. -/
example (a b : Operand) :
    (Record.normalizeRows [.ofList [("a", a), ("b", b)], .ofList [("b", b), ("a", a)],
      .ofList [("b", b), ("c", a)]]).map (·.length) = .error (.invalid (.missingColumn 2 "a")) := by
  rfl

end Compiler

end SqlFragments
