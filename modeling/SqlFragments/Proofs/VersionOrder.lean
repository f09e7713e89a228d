import SqlFragments.Proofs.Ordered

/-!
# Versions as padded numbers

Versions are compared as the lists that they keep, where a list that ends first is smaller. That is
the order of the numbers that versions are made from, place by place, with zeros where the shorter
list has ended (`Version.comparePadded`): no list ends in zero, so what is longer is greater
(`compareParts_trimmed`). Zeros at the end have no part in it (`ofParts_append_zeros`), and a text
that a grammar remembers for a version is found for every version with the same padded numbers.
-/

namespace SqlFragments.Version

/-- Compares lists place by place: the first place with different numbers decides. -/
def comparePlaces (as bs : List UInt64) : Ordering :=
  (List.zipWith (fun a b => Ord.compare a.toNat b.toNat) as bs).foldr Ordering.then .eq

/-- Compares lists place by place, once the shorter has zeros at its end up to the length of the
other. -/
def comparePadded (as bs : List UInt64) : Ordering :=
  let length := max as.length bs.length
  comparePlaces (as.rightpad length 0) (bs.rightpad length 0)

/-! ## Zeros at the end -/

/-- A number in front of a list without zeros at the end. -/
def consTrimmed (a : UInt64) (as : List UInt64) : List UInt64 :=
  if as = [] ∧ a = 0 then [] else a :: as

theorem dropTrailingZeros_cons (a : UInt64) (as : List UInt64) :
    dropTrailingZeros (a :: as) = consTrimmed a (dropTrailingZeros as) := by
  unfold dropTrailingZeros consTrimmed
  rw [List.reverse_cons, List.dropWhile_append]
  cases as.reverse.dropWhile (· == 0) with
  | nil =>
    by_cases zero : a = 0
    · simp [zero]
    · simp [zero]
  | cons last others => simp

theorem dropTrailingZeros_replicate (zeros : Nat) :
    dropTrailingZeros (List.replicate zeros 0) = [] := by
  induction zeros with
  | zero => rfl
  | succ zeros ih =>
    rw [List.replicate_succ, dropTrailingZeros_cons, ih]
    rfl

theorem dropTrailingZeros_append_zeros (as : List UInt64) (zeros : Nat) :
    dropTrailingZeros (as ++ List.replicate zeros 0) = dropTrailingZeros as := by
  induction as with
  | nil => exact dropTrailingZeros_replicate zeros
  | cons a as ih => rw [List.cons_append, dropTrailingZeros_cons, dropTrailingZeros_cons, ih]

/-- **Zeros at the end** make no other version. -/
theorem ofParts_append_zeros (as : List UInt64) (zeros : Nat) :
    ofParts (as ++ List.replicate zeros 0) = ofParts as := by
  unfold ofParts
  simp only [dropTrailingZeros_append_zeros]

/-! ## The order -/

/-- One more place in front decides, unless its numbers are the same. -/
theorem compareParts_consTrimmed (a b : UInt64) (as bs : List UInt64) :
    compareParts (consTrimmed a as) (consTrimmed b bs) =
      (Ord.compare a.toNat b.toNat).then (compareParts as bs) := by
  have zero : (0 : UInt64).toNat = 0 := rfl
  have above {n : UInt64} (h : n ≠ 0) : 0 < n.toNat :=
    Nat.pos_of_ne_zero fun same => h (UInt64.toNat_inj.1 (same.trans zero.symm))
  unfold consTrimmed
  by_cases left : as = [] ∧ a = 0
  · obtain ⟨rfl, rfl⟩ := left
    by_cases right : bs = [] ∧ b = 0
    · obtain ⟨rfl, rfl⟩ := right
      rfl
    · -- The list that has ended is smaller: by the place in front, or by what comes behind.
      rw [if_pos ⟨rfl, rfl⟩, if_neg right, compareParts]
      by_cases same : b = 0
      · obtain ⟨c, cs, rfl⟩ := List.exists_cons_of_ne_nil fun ended => right ⟨ended, same⟩
        rw [same]
        rfl
      · rw [zero, Nat.compare_eq_lt.2 (above same)]
        rfl
  · by_cases right : bs = [] ∧ b = 0
    · obtain ⟨rfl, rfl⟩ := right
      rw [if_neg left, if_pos ⟨rfl, rfl⟩, compareParts]
      by_cases same : a = 0
      · obtain ⟨c, cs, rfl⟩ := List.exists_cons_of_ne_nil fun ended => left ⟨ended, same⟩
        rw [same]
        rfl
      · rw [zero, Nat.compare_eq_gt.2 (above same)]
        rfl
    · rw [if_neg left, if_neg right, compareParts]
      cases Ord.compare a.toNat b.toNat <;> rfl

/-- Lists of one length are ordered place by place, whatever zeros they end in. -/
theorem compareParts_trimmed {as bs : List UInt64} (length : as.length = bs.length) :
    compareParts (dropTrailingZeros as) (dropTrailingZeros bs) = comparePlaces as bs := by
  induction as generalizing bs with
  | nil =>
    obtain rfl := List.eq_nil_of_length_eq_zero length.symm
    rfl
  | cons a as ih =>
    obtain ⟨b, bs, rfl⟩ := List.exists_cons_of_length_eq_add_one length.symm
    rw [dropTrailingZeros_cons, dropTrailingZeros_cons, compareParts_consTrimmed,
      ih (Nat.succ.inj length)]
    rfl

/-- **Versions are ordered by their padded numbers.** -/
theorem compare_ofParts (as bs : List UInt64) :
    Ord.compare (ofParts as) (ofParts bs) = comparePadded as bs := by
  have padded (cs : List UInt64) (length : Nat) :
      dropTrailingZeros (cs.rightpad length 0) = dropTrailingZeros cs :=
    dropTrailingZeros_append_zeros cs _
  unfold comparePadded
  rw [← compareParts_trimmed (by simp), padded, padded]
  rfl

/-- **The order of versions is the numeric order of their padded numbers.** Two versions compare like
the numbers that they are made from, once the shorter list is padded with zeros. They are equal, and
one key of what a grammar remembers, exactly if no place differs. So of two versions one is at most
the other, the order is transitive, and zeros added to or taken from the end of either side change no
comparison. -/
theorem ordered_by_padded_numbers (as bs : List UInt64) :
    Ord.compare (ofParts as) (ofParts bs) = comparePadded as bs ∧
    (ofParts as = ofParts bs ↔ comparePadded as bs = .eq) ∧
    (∀ (g : Grammar) (driver : Driver) (text : String),
      (g.remember driver (ofParts as) text).resolved.lookup (driver, ofParts bs) =
        if comparePadded as bs = .eq then some text
        else g.resolved.lookup (driver, ofParts bs)) ∧
    comparePadded bs as = (comparePadded as bs).swap ∧
    (∀ cs, (comparePadded as bs).isLE → (comparePadded bs cs).isLE →
      (comparePadded as cs).isLE) ∧
    ∀ (zeros : Nat) (v : Version),
      Ord.compare (ofParts (as ++ List.replicate zeros 0)) v = Ord.compare (ofParts as) v ∧
      Ord.compare v (ofParts (as ++ List.replicate zeros 0)) = Ord.compare v (ofParts as) := by
  have equal : ofParts as = ofParts bs ↔ comparePadded as bs = .eq := by
    rw [← compare_ofParts]
    exact Std.LawfulEqCmp.compare_eq_iff_eq.symm
  refine ⟨compare_ofParts as bs, equal, ?_, ?_, ?_, ?_⟩
  · intro g driver text
    rw [Grammar.remember]
    by_cases same : ofParts as = ofParts bs
    · rw [if_pos (equal.1 same), same, List.lookup_cons_self]
    · have apart : (driver, ofParts bs) ≠ (driver, ofParts as) :=
        fun key => same (Prod.mk.inj key).2.symm
      rw [if_neg fun found => same (equal.2 found), List.lookup_cons, beq_false_of_ne apart]
  · rw [← compare_ofParts, ← compare_ofParts]
    exact Std.OrientedCmp.eq_swap
  · intro cs first second
    rw [← compare_ofParts] at first second ⊢
    exact Std.TransCmp.isLE_trans first second
  · intro zeros v
    rw [ofParts_append_zeros]
    exact ⟨rfl, rfl⟩

/-- The second number of `1.10` is the greater one though its text is not, `2` is above both, and
`8.0` is also `8`. -/
theorem serverVersions_ordered :
    Ord.compare (ofParts [1, 2]) (ofParts [1, 10]) = .lt ∧ ofParts [8, 0] = ofParts [8] ∧
    (comparePadded [1, 2] [1, 10]).isLE ∧ (comparePadded [1, 10] [2]).isLE ∧
    (comparePadded [1, 2] [2]).isLE := by
  obtain ⟨compared, -, -, -, transitive, -⟩ := ordered_by_padded_numbers [1, 2] [1, 10]
  obtain ⟨-, equal, -⟩ := ordered_by_padded_numbers [8, 0] [8]
  have first : (comparePadded [1, 2] [1, 10]).isLE := by decide
  have second : (comparePadded [1, 10] [2]).isLE := by decide
  refine ⟨?_, equal.2 (by decide), first, second, transitive [2] first second⟩
  rw [compared]
  decide

end SqlFragments.Version
