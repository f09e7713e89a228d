import SqlFragments.Proofs.Numbering
import SqlFragments.Proofs.WrittenNames
import SqlFragments.Proofs.QuotedName

/-!
# Placeholders as they are scanned and as they are read

Brackets and backticks are quotes to the scan for placeholders, in every dialect. Postgres has no
such quotes, and what stands in the brackets of an array is read like everything else. So its
reading of a statement may have placeholders that the scan passes over.

`MarkedAlike` compares the two, character by character. The scan numbers what is read exactly if it
finds the same placeholders (`Dialect.numberPlaceholders_eq_iff`). It does where what stands in
brackets is `Unbracketed`, that is, without placeholders (`Dialect.marking_of_unbracketed`), and it
does not where a placeholder stands in brackets behind such a text
(`Dialect.marking_ne_of_bracket`).
-/

namespace SqlFragments

namespace Quote

variable {backslash : Bool} {q : Quote} {cs ds rest : List Char}

theorem marking_append (q : Quote) (cs ds : List Char) :
    q.marking backslash (cs ++ ds) =
      q.marking backslash cs ++ (q.after backslash cs).marking backslash ds := by
  induction cs generalizing q with
  | nil => rfl
  | cons c cs ih => rw [List.cons_append, marking, marking, ih, after_cons, List.cons_append]

@[simp] theorem length_marking (q : Quote) (cs : List Char) :
    (q.marking backslash cs).length = cs.length := by
  induction cs generalizing q with
  | nil => rfl
  | cons c cs ih => rw [marking, List.length_cons, ih, List.length_cons]

theorem count_marking (q : Quote) (cs : List Char) :
    (q.marking backslash cs).count true = q.count backslash cs := by
  induction cs generalizing q with
  | nil => rfl
  | cons c cs ih =>
    rw [marking, List.count_cons, ih, count_cons, Nat.add_comm]
    cases q.marks c <;> rfl

/-- Where there is no placeholder nothing is marked. -/
theorem marking_eq_replicate_iff :
    q.marking backslash cs = List.replicate cs.length false ↔ q.count backslash cs = 0 := by
  rw [← count_marking, List.count_eq_zero, List.eq_replicate_iff, length_marking]
  constructor
  · rintro ⟨-, all⟩ marked
    cases all true marked
  · refine fun unmarked => ⟨rfl, fun b member => ?_⟩
    cases b with
    | false => rfl
    | true => exact absurd member unmarked

/-- Numbering leaves the front of a text as it is exactly if there is no placeholder in it. -/
theorem copied_iff (q : Quote) (next : Nat) (cs ds rest : List Char) :
    cs ++ ds = q.number backslash next (cs ++ rest) ↔
      q.count backslash cs = 0 ∧ ds = (q.after backslash cs).number backslash next rest := by
  induction cs generalizing q next with
  | nil => simp
  | cons c cs ih =>
    rw [List.cons_append, List.cons_append, number, count_cons]
    by_cases marked : q.marks c = true
    · have mark : c ≠ '$' := by
        obtain ⟨-, rfl⟩ := marks_iff.1 marked
        decide
      simp [marked, mark]
    · simp [marked, ih, after_cons]

end Quote

namespace Lexeme

variable {x : Lexeme} {ls : List Lexeme}

/-- For each character of a lexeme, whether it is a placeholder. -/
def marking : Lexeme → List Bool
  | bare c => [c == '?']
  | x => List.replicate x.spelled.length false

/-- The lexemes with their placeholders written `$1`, `$2`, …, from `next` on. -/
def numbered : Nat → List Lexeme → List Lexeme
  | _, [] => []
  | next, x :: ls =>
    if x = bare '?' then bare '$' :: (toString next).toList.map bare ++ numbered (next + 1) ls
    else x :: numbered next ls

theorem marking_of_ne (h : x ≠ bare '?') : x.marking = List.replicate x.spelled.length false := by
  cases x with
  | bare c =>
    have other : c ≠ '?' := fun same => h (same ▸ rfl)
    simp [marking, other, spelled]
  | quoted pair content | unclosed pair content => rfl

/-- A scan numbers the placeholders that lexemes have exactly if it finds the same ones. -/
theorem spelling_numbered_iff (backslash : Bool) (q : Quote) (next : Nat) (ls : List Lexeme) :
    spelling (numbered next ls) = q.number backslash next (spelling ls) ↔
      q.marking backslash (spelling ls) = ls.flatMap marking := by
  induction ls generalizing q next with
  | nil => simp [numbered, spelling, Quote.number, Quote.marking]
  | cons x ls ih =>
    have spelled : spelling (x :: ls) = x.spelled ++ spelling ls := rfl
    rw [spelled, List.flatMap_cons, numbered]
    split
    · next mark =>
      subst mark
      rw [Lexeme.spelled, List.singleton_append, Quote.number, Quote.marking, marking]
      by_cases marked : q.marks '?' = true
      · obtain ⟨rfl, -⟩ := Quote.marks_iff.1 marked
        have step := ih .outside (next + 1)
        simpa [Quote.step_mark, marked, spelling, Lexeme.spelled, List.flatMap_map] using step
      · simp [marked, spelling, Lexeme.spelled]
    · next other =>
      have front : spelling (x :: numbered next ls) =
          x.spelled ++ spelling (numbered next ls) := rfl
      rw [front, Quote.copied_iff, ih, Quote.marking_append, marking_of_ne other,
        ← Quote.marking_eq_replicate_iff]
      constructor
      · rintro ⟨unmarked, later⟩
        rw [unmarked, later]
      · intro same
        exact List.append_inj same (by simp)

@[simp] theorem length_marking (x : Lexeme) : x.marking.length = x.spelled.length := by
  cases x <;> simp [marking, spelled]

theorem length_flatMap_marking (ls : List Lexeme) :
    (ls.flatMap marking).length = (spelling ls).length := by
  simp [spelling, List.length_flatMap]

theorem count_flatMap_marking (ls : List Lexeme) :
    (ls.flatMap marking).count true = ls.count (bare '?') := by
  induction ls with
  | nil => rfl
  | cons x ls ih =>
    rw [List.flatMap_cons, List.count_append, ih, List.count_cons, Nat.add_comm]
    by_cases mark : x = bare '?'
    · subst mark
      rfl
    · rw [marking_of_ne mark]
      simp [List.count_replicate, mark]

/-- A lexeme that is neither an opening bracket nor a backtick outside quotes. -/
def IsCalm (x : Lexeme) : Prop := x ≠ bare '[' ∧ x ≠ bare '`'

instance (x : Lexeme) : Decidable x.IsCalm :=
  inferInstanceAs (Decidable (x ≠ bare '[' ∧ x ≠ bare '`'))

/-- Lexemes that have no placeholders in brackets: the brackets that are opened are closed and hold
none, and no backtick stands outside quotes. -/
inductive Unbracketed : List Lexeme → Prop
  | nil : Unbracketed []
  | calm {x : Lexeme} {ls : List Lexeme} (calm : x.IsCalm) (later : Unbracketed ls) :
    Unbracketed (x :: ls)
  | brackets {inner ls : List Lexeme} (unclosed : ']' ∉ spelling inner)
    (unmarked : bare '?' ∉ inner) (later : Unbracketed ls) :
    Unbracketed (bare '[' :: (inner ++ bare ']' :: ls))

theorem Unbracketed.of_calm (calm : ∀ x ∈ ls, x.IsCalm) : Unbracketed ls := by
  induction ls with
  | nil => exact .nil
  | cons x ls ih =>
    rw [List.forall_mem_cons] at calm
    exact .calm calm.1 (ih calm.2)

theorem Unbracketed.append {later : List Lexeme} (h : Unbracketed ls) (h' : Unbracketed later) :
    Unbracketed (ls ++ later) := by
  induction h with
  | nil => exact h'
  | calm calm _ ih => exact .calm calm ih
  | brackets unclosed unmarked _ ih =>
    rw [List.cons_append, List.append_assoc, List.cons_append]
    exact .brackets unclosed unmarked ih

/-- Without placeholders nothing is marked. -/
theorem flatMap_marking_of_notMem (unmarked : bare '?' ∉ ls) :
    ls.flatMap marking = List.replicate (spelling ls).length false := by
  induction ls with
  | nil => rfl
  | cons x ls ih =>
    rw [List.mem_cons, not_or] at unmarked
    have spelled : spelling (x :: ls) = x.spelled ++ spelling ls := rfl
    rw [List.flatMap_cons, marking_of_ne (Ne.symm unmarked.1), ih unmarked.2, spelled,
      List.length_append, List.replicate_add]

end Lexeme

namespace Dialect

open Lexeme

variable {ls : List Lexeme}

/-- Whether the scan for placeholders finds those that Postgres reads. -/
def MarkedAlike (sql : String) : Prop :=
  Quote.outside.marking false sql.toList = (postgres.lexemes sql.toList).flatMap marking

instance (sql : String) : Decidable (MarkedAlike sql) :=
  inferInstanceAs (Decidable (Quote.outside.marking false sql.toList = _))

/-- Numbering by the scan numbers what is read exactly if the scan finds the same placeholders. -/
theorem numberPlaceholders_eq_iff (sql : String) :
    numberPlaceholders sql =
        String.ofList (spelling (numbered 1 (postgres.lexemes sql.toList))) ↔
      MarkedAlike sql := by
  have same := spelling_numbered_iff false .outside 1 (postgres.lexemes sql.toList)
  rw [spelled_lexemes rfl] at same
  rw [numberPlaceholders, String.ofList_inj, eq_comm, same, MarkedAlike]

/-- A scan that finds the placeholders that are read finds as many. -/
theorem countPlaceholders_of_markedAlike {sql : String} (alike : MarkedAlike sql) :
    countPlaceholders false sql = (postgres.lexemes sql.toList).count (bare '?') := by
  calc countPlaceholders false sql
    _ = (Quote.outside.marking false sql.toList).count true :=
      (Quote.count_marking .outside sql.toList).symm
    _ = ((postgres.lexemes sql.toList).flatMap marking).count true := by rw [alike]
    _ = (postgres.lexemes sql.toList).count (bare '?') := count_flatMap_marking _

/-- The quotes of Postgres are quotes to the scan, and open and close with one character. -/
theorem closing?_of_own {pair : QuotePair} (own : postgres.Own pair) :
    pair.opening = pair.closing ∧ Quote.closing? pair.closing = some pair.closing := by
  unfold Own quotes? at own
  split at own
  · obtain rfl := Option.some.inj own
    exact ⟨rfl, rfl⟩
  · split at own
    · next literal =>
      have single : pair.opening = '\'' := literal.resolve_right fun h => nomatch h.1
      rw [single] at own
      obtain rfl := Option.some.inj own
      exact ⟨rfl, rfl⟩
    · cases own

/-- A calm lexeme is scanned as it is read. -/
theorem scanned_of_calm {x : Lexeme} (own : postgres.Reads x) (calm : x.IsCalm)
    (closed : x.isClosed = true) :
    Quote.outside.marking false x.spelled = x.marking ∧
      Quote.outside.after false x.spelled = .outside := by
  cases x with
  | bare c =>
    have bare : postgres.IsBare c := own
    have none : Quote.closing? c = none := by
      have single : c ≠ '\'' := by
        rintro rfl
        exact absurd bare (by decide)
      have double : c ≠ '"' := by
        rintro rfl
        exact absurd bare (by decide)
      have bracket : c ≠ '[' := fun same => calm.1 (same ▸ rfl)
      have backtick : c ≠ '`' := fun same => calm.2 (same ▸ rfl)
      simp [Quote.closing?, single, double, bracket, backtick]
    have stays : Quote.outside.step false c = .outside := by simp [Quote.step, none]
    refine ⟨?_, stays⟩
    simp [spelled, marking, Quote.marking, Quote.marks]
  | quoted pair content =>
    obtain ⟨same, closes⟩ := closing?_of_own own
    have opened : Quote.outside.step false pair.closing = .inside pair.closing := by
      simp [Quote.step, closes]
    have mark : Quote.outside.marks pair.closing = false := by
      refine Quote.marks_of_ne_mark _ fun mark => ?_
      rw [mark] at closes
      cases closes
    have inner : (Quote.inside pair.closing).after false
          (Text.doubled pair.closing content ++ [pair.closing]) = .outside ∧
        (Quote.inside pair.closing).count false
          (Text.doubled pair.closing content ++ [pair.closing]) = 0 :=
      Quote.inside_doubled closes rfl content
    obtain ⟨ended, counted⟩ := inner
    constructor
    · refine Quote.marking_eq_replicate_iff.2 ?_
      rw [spelled, same, List.cons_append, Quote.count_cons, opened, mark, counted]
      rfl
    · rw [spelled, same, List.cons_append, Quote.after_cons, opened, ended]
  | unclosed pair content => cases closed

/-- What stands in brackets is passed over. -/
theorem scanned_inside_brackets {cs : List Char} (unclosed : ']' ∉ cs) :
    Quote.marking false (.inside ']') cs = List.replicate cs.length false ∧
      Quote.after false (.inside ']') cs = .inside ']' := by
  induction cs with
  | nil => exact ⟨rfl, rfl⟩
  | cons c cs ih =>
    rw [List.mem_cons, not_or] at unclosed
    have stays : Quote.step false (.inside ']') c = .inside ']' :=
      Quote.step_inside_ne (Ne.symm unclosed.1) rfl
    have later := ih unclosed.2
    rw [Quote.marking, Quote.after_cons, stays, later.1, later.2]
    exact ⟨rfl, rfl⟩

/-- Where no placeholder stands in brackets, the scan finds those that are read. -/
theorem marking_of_unbracketed (unbracketed : Unbracketed ls) (own : ∀ x ∈ ls, postgres.Reads x)
    (closed : Closed ls) :
    Quote.outside.marking false (spelling ls) = ls.flatMap marking ∧
      Quote.outside.after false (spelling ls) = .outside := by
  induction unbracketed with
  | nil => exact ⟨rfl, rfl⟩
  | @calm x ls calm _ ih =>
    rw [Closed, List.forall_mem_cons] at closed
    rw [List.forall_mem_cons] at own
    have first := scanned_of_calm own.1 calm closed.1
    have later := ih own.2 closed.2
    have spelled : spelling (x :: ls) = x.spelled ++ spelling ls := rfl
    rw [spelled, Quote.marking_append, Quote.after_append, first.1, first.2, later.1, later.2]
    exact ⟨rfl, rfl⟩
  | @brackets inner ls unclosed unmarked _ ih =>
    have last : ∀ x ∈ ls, x ∈ bare '[' :: (inner ++ bare ']' :: ls) := by
      intro x member
      simp [member]
    have later := ih (fun x member => own x (last x member))
      fun x member => closed x (last x member)
    have spelled : spelling (bare '[' :: (inner ++ bare ']' :: ls)) =
        '[' :: (spelling inner ++ ']' :: spelling ls) := by
      simp [spelling, Lexeme.spelled]
    have opened : Quote.outside.step false '[' = .inside ']' := rfl
    have ended : Quote.step false (.inside ']') ']' = .outside := rfl
    obtain ⟨marked, stays⟩ := scanned_inside_brackets unclosed
    constructor
    · rw [spelled, Quote.marking, opened, Quote.marking_append, marked, stays, Quote.marking, ended,
        later.1, List.flatMap_cons, List.flatMap_append, List.flatMap_cons,
        flatMap_marking_of_notMem unmarked]
      rfl
    · rw [spelled, Quote.after_cons, opened, Quote.after_append, stays, Quote.after_cons, ended,
        later.2]

/-- The first placeholder in brackets is read and not scanned. -/
theorem marking_ne_of_bracket {front inner : List Lexeme} (unbracketed : Unbracketed front)
    (own : ∀ x ∈ front, postgres.Reads x) (closed : Closed front)
    (within : ']' ∉ spelling inner) (behind : List Lexeme) :
    let ls := front ++ bare '[' :: inner ++ bare '?' :: behind
    Quote.outside.marking false (spelling ls) ≠ ls.flatMap marking := by
  intro ls same
  have spelled : spelling ls =
      spelling front ++ '[' :: (spelling inner ++ '?' :: spelling behind) := by
    simp [ls, spelling, Lexeme.spelled]
  have marked : ls.flatMap marking = front.flatMap marking ++
      false :: (inner.flatMap marking ++ true :: behind.flatMap marking) := by
    simp [ls, marking]
  obtain ⟨scanned, outer⟩ := marking_of_unbracketed unbracketed own closed
  have ended := (scanned_inside_brackets within).2
  have bracket : Quote.outside.step false '[' = .inside ']' := rfl
  rw [spelled, marked, Quote.marking_append, scanned, outer, Quote.marking, bracket,
    Quote.marking_append, ended, Quote.marking] at same
  have rest := List.append_cancel_left same
  have inner := List.append_inj (List.cons.inj rest).2 (by
    rw [Quote.length_marking, length_flatMap_marking])
  cases (List.cons.inj inner.2).1

end Dialect

end SqlFragments
