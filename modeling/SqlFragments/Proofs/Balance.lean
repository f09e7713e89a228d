import Mathlib.Data.List.Basic
import SqlFragments.Placeholder
import SqlFragments.Text.Pieces

/-!
# Balanced texts

A text is *balanced* when its reading, started outside quotes, ends outside quotes; how many
placeholders it has is part of the notion. Balanced texts can be put one after another and their
placeholders add up (`Balanced.append`), so a statement is counted piece by piece. A text of plain
characters, which neither open a quote nor are a placeholder, is balanced and has no placeholder.

A balanced text without placeholders can be taken out of a statement or put into it: the other
placeholders are counted and numbered as before (`Balanced.passed_over`).
-/

namespace SqlFragments.Quote

variable {backslash : Bool} {q : Quote} {n m : Nat} {cs ds : List Char}

/-- Read from outside quotes, the text ends outside them and has `n` placeholders. -/
structure Balanced (backslash : Bool) (cs : List Char) (n : Nat) : Prop where
  ends : outside.after backslash cs = outside
  counts : outside.count backslash cs = n

instance (backslash : Bool) (cs : List Char) (n : Nat) : Decidable (Balanced backslash cs n) :=
  decidable_of_iff (outside.after backslash cs = outside ∧ outside.count backslash cs = n)
    ⟨fun h => ⟨h.1, h.2⟩, fun h => ⟨h.ends, h.counts⟩⟩

/-- Whether a character neither is a placeholder nor opens a quote. -/
def isPlain (c : Char) : Bool := c != '?' && (closing? c).isNone

/-- A text of plain characters. -/
def Plain (cs : List Char) : Prop := ∀ c ∈ cs, isPlain c = true

instance (cs : List Char) : Decidable (Plain cs) :=
  List.decidableBAll (fun c => isPlain c = true) cs

@[simp] theorem after_nil : q.after backslash [] = q := rfl

@[simp] theorem count_nil : q.count backslash [] = 0 := rfl

theorem after_cons (c : Char) :
    q.after backslash (c :: cs) = (q.step backslash c).after backslash cs :=
  rfl

theorem count_cons (c : Char) :
    q.count backslash (c :: cs) =
      (if q.marks c then 1 else 0) + (q.step backslash c).count backslash cs :=
  rfl

/-- Inside a quote nothing is a placeholder. -/
theorem marks_of_ne_outside (h : q ≠ outside) (c : Char) : q.marks c = false := by
  simp [marks, h]

theorem marks_of_ne_mark (q : Quote) {c : Char} (h : c ≠ '?') : q.marks c = false := by
  simp [marks, h]

/-- A plain character leaves the reading outside quotes. -/
theorem step_of_isPlain {c : Char} (h : isPlain c = true) : outside.step backslash c = outside := by
  have none : closing? c = none := by
    simp only [isPlain, Bool.and_eq_true, Option.isNone_iff_eq_none] at h
    exact h.2
  simp [step, none]

theorem marks_of_isPlain {c : Char} (h : isPlain c = true) : outside.marks c = false := by
  simp only [isPlain, Bool.and_eq_true, bne_iff_ne] at h
  exact marks_of_ne_mark _ h.1

namespace Balanced

theorem nil : Balanced backslash [] 0 := ⟨rfl, rfl⟩

/-- Placeholders of balanced texts add up. -/
theorem append (h : Balanced backslash cs n) (h' : Balanced backslash ds m) :
    Balanced backslash (cs ++ ds) (n + m) where
  ends := by rw [after_append, h.ends, h'.ends]
  counts := by rw [count_append, h.ends, h.counts, h'.counts]

theorem of_plain (h : Plain cs) : Balanced backslash cs 0 := by
  induction cs with
  | nil => exact nil
  | cons c cs ih =>
    have plain : isPlain c = true := h c List.mem_cons_self
    have rest : Balanced backslash cs 0 := ih fun d hd => h d (List.mem_cons_of_mem c hd)
    constructor
    · rw [after_cons, step_of_isPlain plain, rest.ends]
    · rw [count_cons, step_of_isPlain plain, marks_of_isPlain plain, rest.counts]
      rfl

end Balanced

theorem plain_of_all (h : cs.all isPlain = true) : Plain cs := List.all_eq_true.1 h

theorem plain_append_iff : Plain (cs ++ ds) ↔ Plain cs ∧ Plain ds := by
  simp [Plain, or_imp, forall_and]

/-- A digit is plain. -/
theorem isPlain_of_isDigit {c : Char} (h : c.isDigit = true) : isPlain c = true := by
  have differs : ∀ d : Char, d.isDigit = false → c ≠ d := by
    rintro d hd rfl
    exact Bool.noConfusion (h.symm.trans hd)
  simp [isPlain, closing?, differs '?' rfl, differs '\'' rfl, differs '"' rfl, differs '`' rfl,
    differs '[' rfl]

/-- A number is written with plain characters. -/
theorem plain_natText (n : Nat) : Plain (toString n).toList := by
  intro c hc
  rw [Nat.toString_eq_repr, Nat.toList_repr] at hc
  exact isPlain_of_isDigit (Nat.isDigit_of_mem_toDigits (by decide) (by decide) hc)

theorem plain_intText (i : Int) : Plain (toString i).toList := by
  cases i with
  | ofNat n => exact plain_natText n
  | negSucc n =>
    have text : (toString (Int.negSucc n)).toList = '-' :: (toString (n + 1)).toList := by
      rw [Nat.toString_eq_repr]
      exact String.toList_append
    rw [text]
    have minus : Plain ['-'] := by decide
    exact plain_append_iff.2 ⟨minus, plain_natText (n + 1)⟩

/-- Numbering reads on where the text before has ended. -/
theorem number_append (q : Quote) (next : Nat) (cs ds : List Char) :
    q.number backslash next (cs ++ ds) =
      q.number backslash next cs ++
        (q.after backslash cs).number backslash (next + q.count backslash cs) ds := by
  induction cs generalizing q next with
  | nil => simp [number]
  | cons c cs ih =>
    simp only [List.cons_append, number, after_cons, count_cons]
    split
    · rw [ih]
      simp [Nat.add_assoc]
    · rw [ih]
      simp

/-- Where there is no placeholder, numbering changes nothing. -/
theorem number_of_count_eq_zero (next : Nat) (h : q.count backslash cs = 0) :
    q.number backslash next cs = cs := by
  induction cs generalizing q with
  | nil => rfl
  | cons c cs ih =>
    rw [count_cons] at h
    split at h
    · omega
    · next unmarked =>
      rw [number, if_neg unmarked, ih (by omega)]

/-- Plain characters are no placeholders, wherever the reading stands. -/
theorem count_of_plain (q : Quote) (h : Plain cs) : q.count backslash cs = 0 := by
  induction cs generalizing q with
  | nil => rfl
  | cons c cs ih =>
    have plain : isPlain c = true := h c List.mem_cons_self
    simp only [isPlain, Bool.and_eq_true, bne_iff_ne] at plain
    rw [count_cons, marks_of_ne_mark q plain.1, ih _ fun d hd => h d (List.mem_cons_of_mem c hd)]
    rfl

/-- A balanced text without placeholders stands in a statement as it is, and the placeholders around
it are numbered as if it were not there. -/
theorem Balanced.passed_over (h : Balanced backslash cs 0) (next : Nat) {before : List Char}
    (outer : outside.after backslash before = outside) (rest : List Char) :
    outside.count backslash (before ++ cs ++ rest) = outside.count backslash (before ++ rest) ∧
      ∃ tail, outside.number backslash next (before ++ rest) =
          outside.number backslash next before ++ tail ∧
        outside.number backslash next (before ++ cs ++ rest) =
          outside.number backslash next before ++ cs ++ tail := by
  constructor
  · rw [List.append_assoc, count_append, count_append, count_append, outer, h.ends, h.counts,
      Nat.zero_add]
  · refine ⟨_, by rw [number_append, outer], ?_⟩
    rw [List.append_assoc, number_append, number_append, outer, h.ends, h.counts, Nat.add_zero,
      number_of_count_eq_zero _ h.counts, List.append_assoc]

end SqlFragments.Quote
