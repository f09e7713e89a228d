import Mathlib.Data.List.Flatten
import Mathlib.Data.List.Induction
import Mathlib.Data.List.Nodup
import Mathlib.Data.List.Perm.Subperm
import SqlFragments.Proofs.Spelling
import SqlFragments.Query.Record

/-!
# Rows put in order

Rows that are inserted together are put into the columns of the first (`Record.normalizeRows`). No
value is made up for that and none is used twice (`Record.subperm_of_reorder`). None is lost either,
for the columns of the first row are distinct (`Record.perm_of_reorder`).
-/

namespace SqlFragments.Record

/-! ## Setting columns -/

theorem mem_setEntry {column : String} {value : Operand} {entries : List (String × Operand)}
    {entry : String × Operand} (h : entry ∈ setEntry column value entries) :
    entry = (column, value) ∨ entry ∈ entries := by
  induction entries with
  | nil => exact .inl (List.mem_singleton.1 h)
  | cons first rest ih =>
    rw [setEntry] at h
    split at h
    · next same =>
      rcases List.mem_cons.1 h with rfl | later
      · exact .inl (congrArg (·, value) same)
      · exact .inr (List.mem_cons_of_mem _ later)
    · rcases List.mem_cons.1 h with rfl | later
      · exact .inr List.mem_cons_self
      · exact (ih later).imp_right (List.mem_cons_of_mem _)

/-- A column that is set comes last, unless it was set before. -/
theorem columns_set (r : Record) (column : String) (value : Operand) :
    (r.set column value).columns =
      if column ∈ r.columns then r.columns else r.columns ++ [column] := by
  split
  · next known => exact columns_setEntry_of_mem known value
  · next new =>
    have entries : (r.set column value).entries = r.entries ++ [(column, value)] :=
      setEntry_of_notMem new value
    rw [columns, entries, List.map_append]
    rfl

/-- The last setting comes to a record of the others. -/
theorem ofList_concat (settings : List (String × Operand)) (column : String) (value : Operand) :
    ofList (settings ++ [(column, value)]) = (ofList settings).set column value := by
  rw [ofList, List.foldl_append]
  rfl

/-- A record holds no other entries than were set. -/
theorem ofList_subset (settings : List (String × Operand)) : (ofList settings).entries ⊆ settings := by
  induction settings using List.reverseRecOn with
  | nil => exact List.Subset.refl _
  | append_singleton settings last ih =>
    obtain ⟨column, value⟩ := last
    intro entry member
    rw [ofList_concat] at member
    rcases mem_setEntry member with rfl | earlier
    · exact List.mem_append_right _ List.mem_cons_self
    · exact List.mem_append_left _ (ih earlier)

/-- A record of distinct columns holds what was set, in that order. -/
theorem ofList_of_nodup {settings : List (String × Operand)}
    (distinct : (settings.map (·.1)).Nodup) : (ofList settings).entries = settings := by
  induction settings using List.reverseRecOn with
  | nil => rfl
  | append_singleton settings last ih =>
    obtain ⟨column, value⟩ := last
    rw [List.map_append, List.nodup_append] at distinct
    have earlier := ih distinct.1
    have new : column ∉ (ofList settings).entries.map (·.1) := by
      rw [earlier]
      exact fun known => distinct.2.2 _ known _ List.mem_cons_self rfl
    rw [ofList_concat]
    exact (setEntry_of_notMem new value).trans (congrArg (· ++ [(column, value)]) earlier)

/-! ## Reading columns -/

section Picking

variable {row : Nat} {r out : Record} {columns : List String} {entries : List (String × Operand)}

theorem pick_columns (h : r.pick row columns = .ok entries) : entries.map (·.1) = columns := by
  induction columns generalizing entries with
  | nil =>
    cases h
    rfl
  | cons column columns ih =>
    rw [pick] at h
    split at h
    · cases h
    · simp only [bind_eq_ok, pure_eq_ok] at h
      obtain ⟨others, picked, rfl⟩ := h
      rw [List.map_cons, ih picked]

theorem pick_subset (h : r.pick row columns = .ok entries) : entries ⊆ r.entries := by
  induction columns generalizing entries with
  | nil =>
    cases h
    exact List.nil_subset _
  | cons column columns ih =>
    rw [pick] at h
    split at h
    · cases h
    · next value found =>
      simp only [bind_eq_ok, pure_eq_ok] at h
      obtain ⟨others, picked, rfl⟩ := h
      obtain ⟨before, after, split, -⟩ := List.lookup_eq_some_iff.1 found
      refine List.cons_subset.2 ⟨?_, ih picked⟩
      rw [split]
      exact List.mem_append_right _ List.mem_cons_self

/-- A row in the order of the columns has no value twice, and none that the row did not have. -/
theorem subperm_of_reorder (h : r.reorder row columns = .ok out) :
    out.entries.Subperm r.entries := by
  unfold reorder at h
  split at h
  · simp only [bind_eq_ok, pure_eq_ok] at h
    obtain ⟨entries, picked, rfl⟩ := h
    have distinct : (ofList entries).entries.Nodup :=
      List.Nodup.of_map _ (ofList entries).distinct
    exact distinct.subperm (List.Subset.trans (ofList_subset entries) (pick_subset picked))
  · cases h

/-- A row in the order of distinct columns has all the values that the row had. -/
theorem perm_of_reorder (distinct : columns.Nodup) (h : r.reorder row columns = .ok out) :
    out.entries.Perm r.entries := by
  refine (subperm_of_reorder h).perm_of_length_le ?_
  unfold reorder at h
  split at h
  · next wide =>
    simp only [bind_eq_ok, pure_eq_ok] at h
    obtain ⟨entries, picked, rfl⟩ := h
    have read := pick_columns picked
    have size : entries.length = columns.length := by
      rw [← read, List.length_map]
    rw [ofList_of_nodup (read ▸ distinct), size]
    exact Nat.le_of_eq wide
  · cases h

end Picking

/-! ## All rows -/

variable {rows normal : List Record}

theorem forall₂_of_reorderAll {columns : List String} {row : Nat}
    (h : reorderAll columns row rows = .ok normal) :
    List.Forall₂ (fun r out => ∃ row, r.reorder row columns = .ok out) rows normal := by
  induction rows generalizing row normal with
  | nil =>
    cases h
    exact .nil
  | cons r rows ih =>
    simp only [reorderAll, bind_eq_ok, pure_eq_ok] at h
    obtain ⟨first, reordered, others, rest, rfl⟩ := h
    exact .cons ⟨row, reordered⟩ (ih rest)

/-- Every row is put in order by itself, by the columns of one of them. -/
theorem forall₂_of_normalizeRows (h : normalizeRows rows = .ok normal) :
    ∃ columns, (columns = [] ∨ ∃ first ∈ rows, columns = first.columns) ∧
      List.Forall₂ (fun r out => ∃ row, r.reorder row columns = .ok out) rows normal := by
  cases rows with
  | nil =>
    cases h
    exact ⟨[], .inl rfl, .nil⟩
  | cons first rest =>
    exact ⟨first.columns, .inr ⟨first, List.mem_cons_self, rfl⟩, forall₂_of_reorderAll h⟩

/-- What rows in the columns of the first bring is what the given rows bring, or less. -/
theorem subperm_of_normalizeRows {β : Type} (f : String × Operand → List β)
    (h : normalizeRows rows = .ok normal) :
    (normal.flatMap fun r => r.entries.flatMap f).Subperm
      (rows.flatMap fun r => r.entries.flatMap f) := by
  obtain ⟨columns, -, each⟩ := forall₂_of_normalizeRows h
  clear h
  induction each with
  | nil => exact .refl _
  | cons reordered _ ih =>
    obtain ⟨row, reordered⟩ := reordered
    obtain ⟨entries, same, within⟩ := subperm_of_reorder reordered
    rw [List.flatMap_cons, List.flatMap_cons]
    exact .append ⟨entries.flatMap f, same.flatMap_right f, within.flatMap f⟩ ih

/-- Rows in the columns of the first bring what the given rows bring. -/
theorem perm_of_normalizeRows {β : Type} (f : String × Operand → List β)
    (h : normalizeRows rows = .ok normal) :
    (normal.flatMap fun r => r.entries.flatMap f).Perm
      (rows.flatMap fun r => r.entries.flatMap f) := by
  obtain ⟨columns, chosen, each⟩ := forall₂_of_normalizeRows h
  have once : columns.Nodup := by
    rcases chosen with rfl | ⟨first, -, rfl⟩
    · exact List.nodup_nil
    · exact first.distinct
  clear h chosen
  induction each with
  | nil => exact .refl _
  | cons reordered _ ih =>
    obtain ⟨row, reordered⟩ := reordered
    rw [List.flatMap_cons, List.flatMap_cons]
    exact ((perm_of_reorder once reordered).flatMap_right f).append ih

theorem expressions_eq (r : Record) :
    r.expressions = r.entries.flatMap fun entry => entry.2.expression?.toList :=
  List.filterMap_eq_flatMap_toList _ _

/-- Putting rows in order finds the expressions of the given rows. -/
theorem mem_expressions_of_normalizeRows (h : normalizeRows rows = .ok normal) {x : Expression} :
    x ∈ normal.flatMap expressions ↔ x ∈ rows.flatMap expressions := by
  simp only [funext expressions_eq]
  exact (perm_of_normalizeRows _ h).mem_iff

end SqlFragments.Record
