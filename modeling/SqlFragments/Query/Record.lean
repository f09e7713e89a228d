import SqlFragments.Query.Slot

/-!
# Records

A `Record` gives values to columns, in the order in which the columns were first set: a row to
insert or the assignments of an update. It sets no column twice, and setting columns keeps it so
(`Record.nodup_setEntry`). Rows are inserted together only when they set the same columns;
`Record.normalizeRows` puts every row into the column order of the first.
-/

namespace SqlFragments

/-- Values of distinct columns, in the order in which the columns were first set. -/
@[ext]
structure Record where
  entries : List (String × Operand) := []
  distinct : (entries.map (·.1)).Nodup := by exact List.nodup_nil

instance : Inhabited Record := ⟨{}⟩

namespace Record

/-- The entries with the value of a column replaced where it stands, or added at the end. -/
def setEntry (column : String) (value : Operand) : List (String × Operand) → List (String × Operand)
  | [] => [(column, value)]
  | (c, v) :: rest =>
    if c = column then (c, value) :: rest else (c, v) :: setEntry column value rest

/-- A column that was not set comes after those that were. -/
theorem setEntry_of_notMem {column : String} {entries : List (String × Operand)}
    (new : column ∉ entries.map (·.1)) (value : Operand) :
    setEntry column value entries = entries ++ [(column, value)] := by
  induction entries with
  | nil => rfl
  | cons entry rest ih =>
    rw [List.map_cons, List.mem_cons, not_or] at new
    rw [setEntry, if_neg (Ne.symm new.1), ih new.2, List.cons_append]

/-- Setting a column that was set keeps the columns as they are. -/
theorem columns_setEntry_of_mem {column : String} {entries : List (String × Operand)}
    (known : column ∈ entries.map (·.1)) (value : Operand) :
    (setEntry column value entries).map (·.1) = entries.map (·.1) := by
  induction entries with
  | nil => cases known
  | cons first rest ih =>
    rw [setEntry]
    split
    · rfl
    · next other =>
      rw [List.map_cons, ih ((List.mem_cons.1 known).resolve_left (Ne.symm other)), List.map_cons]

/-- Setting a column sets none twice. -/
theorem nodup_setEntry {entries : List (String × Operand)} (distinct : (entries.map (·.1)).Nodup)
    (column : String) (value : Operand) : ((setEntry column value entries).map (·.1)).Nodup := by
  by_cases known : column ∈ entries.map (·.1)
  · rwa [columns_setEntry_of_mem known]
  · rw [setEntry_of_notMem known, List.map_append, List.nodup_append]
    refine ⟨distinct, by simp, fun c member d last same => ?_⟩
    obtain rfl : c = column := same.trans (List.mem_singleton.1 last)
    exact known member

/-- Sets a column; a column that is set again keeps its place. -/
def set (r : Record) (column : String) (value : Operand) : Record :=
  ⟨setEntry column value r.entries, nodup_setEntry r.distinct column value⟩

/-- The record of the settings, made one after another. -/
def ofList (settings : List (String × Operand)) : Record :=
  settings.foldl (fun r (column, value) => r.set column value) {}

/-- The record with a column left out. -/
def without (r : Record) (column : String) : Record :=
  ⟨r.entries.filter fun entry => entry.1 != column,
    r.distinct.sublist (List.filter_sublist.map _)⟩

/-- Sets a column in front of all others. -/
def setFirst (r : Record) (column : String) (value : Operand) : Record where
  entries := (column, value) :: (r.without column).entries
  distinct := by
    refine List.nodup_cons.2 ⟨fun known => ?_, (r.without column).distinct⟩
    obtain ⟨entry, kept, same⟩ := List.mem_map.1 known
    simp [without, same] at kept

/-- The value of a column. -/
def get? (r : Record) (column : String) : Option Operand :=
  r.entries.lookup column

/-- The columns in order. -/
def columns (r : Record) : List String :=
  r.entries.map (·.1)

/-- The number of columns. -/
def size (r : Record) : Nat :=
  r.entries.length

/-- Whether no column is set. -/
def isEmpty (r : Record) : Bool :=
  r.entries.isEmpty

/-- The bindings of the values in column order. -/
def bindings (r : Record) : List Binding :=
  r.entries.flatMap fun entry => entry.2.bindings

/-- The expressions among the values in column order. -/
def expressions (r : Record) : List Expression :=
  r.entries.filterMap fun entry => entry.2.expression?

/-- Setting a column gives it that value. -/
theorem get?_set_self (r : Record) (column : String) (value : Operand) :
    (r.set column value).get? column = some value := by
  simp only [get?, set]
  induction r.entries with
  | nil => simp [setEntry]
  | cons entry rest ih =>
    obtain ⟨c, v⟩ := entry
    by_cases h : c = column
    · simp [setEntry, h]
    · have h' : (column == c) = false := by simpa using Ne.symm h
      simp [setEntry, h, List.lookup_cons, h', ih]

/-- Setting a column leaves the others alone. -/
theorem get?_set_ne (r : Record) (value : Operand) {column other : String} (h : other ≠ column) :
    (r.set column value).get? other = r.get? other := by
  have hne : (other == column) = false := by simpa using h
  simp only [get?, set]
  induction r.entries with
  | nil => simp [setEntry, List.lookup_cons, hne]
  | cons entry rest ih =>
    obtain ⟨c, v⟩ := entry
    by_cases hc : c = column
    · subst hc
      simp [setEntry, List.lookup_cons, hne]
    · simp [setEntry, hc, List.lookup_cons, ih]

/-- Reads the columns from a row; `row` is its number. -/
def pick (row : Nat) (r : Record) : List String → Except Error (List (String × Operand))
  | [] => .ok []
  | column :: rest =>
    match r.get? column with
    | none => .error (.invalid (.missingColumn row column))
    | some value => do
      let others ← pick row r rest
      return (column, value) :: others

/-- The row in the order of the columns. A row with another number of columns is refused, and one
that lacks a column. -/
def reorder (row : Nat) (columns : List String) (r : Record) : Except Error Record :=
  if r.size = columns.length then do return ofList (← r.pick row columns)
  else .error (.invalid (.rowWidth row r.size columns.length))

/-- The rows in the order of the columns, numbered from `row` on. -/
def reorderAll (columns : List String) (row : Nat) : List Record → Except Error (List Record)
  | [] => .ok []
  | r :: rest => do
    let first ← r.reorder row columns
    let others ← reorderAll columns (row + 1) rest
    return first :: others

/-- The rows in the column order of the first. -/
def normalizeRows : List Record → Except Error (List Record)
  | [] => .ok []
  | first :: rest => reorderAll first.columns 0 (first :: rest)

end Record

end SqlFragments
