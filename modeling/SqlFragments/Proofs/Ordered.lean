import Mathlib.Data.Finset.Sort
import Mathlib.Order.Std
import SqlFragments.Grammar

/-!
# Ordered keys

Versions are ordered number by number and drivers by rank and name; both orders are linear. A list of
pairs is `Ascending` when its keys are. Inserting a pair at its place keeps that, changes what the
list holds at the key and nothing else (`lookup_insertOrdered`).
-/

namespace SqlFragments

/-! ## Versions and drivers -/

namespace Version

theorem compareParts_eq (as bs : List UInt64) : compareParts as bs = Ord.compare as bs := by
  induction as generalizing bs with
  | nil => cases bs <;> rfl
  | cons a as ih =>
    cases bs with
    | nil => rfl
    | cons b bs =>
      rw [compareParts, List.compare_cons_cons, ← UInt64.compare_eq_toNat_compare_toNat, ih]
      cases Ord.compare a b <;> rfl

/-- Versions are ordered like the lists of their numbers. -/
theorem compare_eq_compareOn : (Ord.compare : Version → Version → Ordering) = compareOn parts :=
  funext₂ fun a b => compareParts_eq a.parts b.parts

instance : Std.TransOrd Version := by
  unfold Std.TransOrd
  rw [compare_eq_compareOn]
  infer_instance

instance : Std.LawfulEqOrd Version where
  eq_of_compare {a b} equal := by
    rw [compare_eq_compareOn] at equal
    have parts : a.parts = b.parts := Std.LawfulEqCmp.eq_of_compare equal
    cases a
    cases b
    subst parts
    rfl

instance : LinearOrder Version := .ofStd Version

end Version

namespace Driver

/-- Drivers are ordered by rank; only those of the last rank differ by name. -/
theorem compare_eq_compareLex :
    (Ord.compare : Driver → Driver → Ordering) = compareLex (compareOn rank) (compareOn name) := by
  funext a b
  cases a <;> cases b <;> rfl

instance : Std.TransOrd Driver := by
  unfold Std.TransOrd
  rw [compare_eq_compareLex]
  infer_instance

instance : Std.LawfulEqOrd Driver where
  eq_of_compare {a b} equal := by
    rw [compare_eq_compareLex, compareLex, Ordering.then_eq_eq] at equal
    have rank : a.rank = b.rank := Std.LawfulEqCmp.eq_of_compare equal.1
    have name : a.name = b.name := Std.LawfulEqCmp.eq_of_compare equal.2
    cases a <;> cases b <;> simp_all [Driver.rank, Driver.name]

instance : LinearOrder Driver := .ofStd Driver

end Driver

/-! ## Pairs in the order of their keys -/

variable {κ ν : Type}

/-- The keys go up. -/
def Ascending [LinearOrder κ] (entries : List (κ × ν)) : Prop :=
  (entries.map Prod.fst).Pairwise (· < ·)

/-- A key is there exactly when the list holds something at it. -/
theorem isSome_lookup_iff [BEq κ] [LawfulBEq κ] {key : κ} {entries : List (κ × ν)} :
    (entries.lookup key).isSome ↔ key ∈ entries.map Prod.fst := by
  induction entries with
  | nil => simp
  | cons entry rest ih =>
    obtain ⟨k, v⟩ := entry
    by_cases same : key = k
    · simp [same]
    · simp [List.lookup_cons, beq_false_of_ne same, same, ih]

/-- What is found at a key is there with the key. -/
theorem mem_of_lookup [BEq κ] [LawfulBEq κ] {key : κ} {value : ν} {entries : List (κ × ν)}
    (h : entries.lookup key = some value) : (key, value) ∈ entries := by
  obtain ⟨before, behind, rfl, _⟩ := List.lookup_eq_some_iff.1 h
  exact List.mem_append_right _ List.mem_cons_self

/-- Dropping keys changes nothing at the others. -/
theorem lookup_filter_key [BEq κ] [LawfulBEq κ] (keep : κ → Bool) {key : κ}
    {entries : List (κ × ν)} :
    (entries.filter fun entry => keep entry.1).lookup key =
      if keep key then entries.lookup key else none := by
  induction entries with
  | nil => simp
  | cons entry rest ih =>
    obtain ⟨k, v⟩ := entry
    by_cases same : key = k
    · subst same
      by_cases kept : keep key
      · simp [kept]
      · simpa [kept] using ih
    · by_cases kept : keep k
      · simp [kept, List.lookup_cons, beq_false_of_ne same, ih]
      · simp [kept, List.lookup_cons, beq_false_of_ne same, ih]

namespace Ascending

variable [LinearOrder κ] {entries : List (κ × ν)}

/-- In ascending order the first pair with a key is the only one. -/
theorem lookup_of_mem [BEq κ] [LawfulBEq κ] (h : Ascending entries) {key : κ} {value : ν}
    (there : (key, value) ∈ entries) : entries.lookup key = some value := by
  induction entries with
  | nil => cases there
  | cons entry rest ih =>
    obtain ⟨below, later⟩ := List.pairwise_cons.1 h
    rcases List.mem_cons.1 there with rfl | there
    · simp
    · have above : entry.1 < key := below key (List.mem_map_of_mem there)
      rw [List.lookup_cons, beq_false_of_ne above.ne']
      exact ih later there

/-- Ascending keys are sorted. -/
theorem sort_toFinset (h : Ascending entries) :
    (entries.map Prod.fst).toFinset.sort = entries.map Prod.fst :=
  (List.toFinset_sort _ (h.imp ne_of_lt)).2 (h.imp le_of_lt)

end Ascending

section Insertion

variable [LinearOrder κ] {key other : κ} {value : ν} {entries : List (κ × ν)}

theorem insertOrdered_ne_nil : insertOrdered key value entries ≠ [] := by
  cases entries with
  | nil => exact List.cons_ne_nil _ _
  | cons first rest =>
    rw [insertOrdered]
    split <;> exact List.cons_ne_nil _ _

/-- Whatever is there after an insertion is what was inserted, or was there before. -/
theorem mem_insertOrdered {entry : κ × ν} (h : entry ∈ insertOrdered key value entries) :
    entry = (key, value) ∨ entry ∈ entries := by
  induction entries with
  | nil => exact .inl (List.mem_singleton.1 h)
  | cons first rest ih =>
    obtain ⟨k, v⟩ := first
    rw [insertOrdered] at h
    split at h
    · exact List.mem_cons.1 h
    · exact (List.mem_cons.1 h).imp_right (List.mem_cons_of_mem _)
    · rcases List.mem_cons.1 h with same | later
      · exact .inr (same ▸ List.mem_cons_self)
      · exact (ih later).imp_right (List.mem_cons_of_mem _)

/-- Inserting at a key changes what is there and nothing else. -/
theorem lookup_insertOrdered [BEq κ] [LawfulBEq κ] :
    (insertOrdered key value entries).lookup other =
      if other = key then some value else entries.lookup other := by
  induction entries with
  | nil =>
    by_cases same : other = key
    · simp [insertOrdered, same]
    · simp [insertOrdered, List.lookup_cons, beq_false_of_ne same, same]
  | cons first rest ih =>
    obtain ⟨k, v⟩ := first
    rw [insertOrdered]
    split
    · by_cases same : other = key
      · simp [same]
      · simp [List.lookup_cons, beq_false_of_ne same, same]
    · next equal =>
      obtain rfl := compare_eq_iff_eq.1 equal
      by_cases same : other = key
      · simp [same]
      · simp [List.lookup_cons, beq_false_of_ne same, same]
    · next above =>
      -- The inserted key stands further back, so it cannot hide the first one.
      have differs : k ≠ key := (compare_gt_iff_gt.1 above).ne
      rw [List.lookup_cons, List.lookup_cons, ih]
      by_cases same : other = k
      · simp [same, differs]
      · simp [beq_false_of_ne same]

theorem Ascending.insertOrdered (h : Ascending entries) :
    Ascending (insertOrdered key value entries) := by
  induction entries with
  | nil => exact List.pairwise_singleton _ _
  | cons first rest ih =>
    obtain ⟨k, v⟩ := first
    obtain ⟨below, later⟩ := List.pairwise_cons.1 h
    rw [SqlFragments.insertOrdered]
    split
    · next less =>
      have less : key < k := compare_lt_iff_lt.1 less
      refine List.pairwise_cons.2 ⟨fun other member => ?_, h⟩
      rcases List.mem_cons.1 member with rfl | member
      · exact less
      · exact less.trans (below other member)
    · next equal =>
      obtain rfl := compare_eq_iff_eq.1 equal
      exact h
    · next above =>
      have above : k < key := compare_gt_iff_gt.1 above
      refine List.pairwise_cons.2 ⟨fun other member => ?_, ih later⟩
      obtain ⟨entry, there, rfl⟩ := List.mem_map.1 member
      rcases mem_insertOrdered there with rfl | there
      · exact above
      · exact below _ (List.mem_map_of_mem there)

end Insertion

end SqlFragments
