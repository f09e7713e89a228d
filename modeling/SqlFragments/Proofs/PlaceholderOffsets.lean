import Mathlib.Data.String.Basic
import SqlFragments.Proofs.Numbering

/-!
# Numbering at byte offsets

A scan for placeholders tells where each one stands, as the number of bytes before it. Numbering is
stated here on these offsets: `numberPlaceholders` gives the slices of the text between them with
the numbers in their places (`numberPlaceholders_eq_sliced`), whatever the text is, also where a
quote is never closed.

A numbered text has no placeholder left and is read to where the text itself is read, so numbering
it again changes nothing (`numbering_exact`).
-/

namespace SqlFragments

namespace Quote

variable {backslash : Bool} {q : Quote} {cs : List Char} {pieces : List (List Char)}

/-- The byte offsets of the placeholders of a text that starts at `start` and is read from here. -/
def offsets (backslash : Bool) : Quote → Nat → List Char → List Nat
  | _, _, [] => []
  | q, start, c :: cs =>
    (if q.marks c then [start] else []) ++
      offsets backslash (q.step backslash c) (start + c.utf8Size) cs

/-- The byte offsets at which pieces end that stand one byte apart, but for the last piece. -/
def breaks : Nat → List (List Char) → List Nat
  | _, [] | _, [_] => []
  | start, piece :: second :: rest =>
    (start + String.utf8Len piece) :: breaks (start + String.utf8Len piece + 1) (second :: rest)

theorem offsets_append (q : Quote) (start : Nat) (cs ds : List Char) :
    q.offsets backslash start (cs ++ ds) =
      q.offsets backslash start cs ++
        (q.after backslash cs).offsets backslash (start + String.utf8Len cs) ds := by
  induction cs generalizing q start with
  | nil => rfl
  | cons c cs ih =>
    rw [List.cons_append, offsets, offsets, ih, after_cons, String.utf8Len_cons, List.append_assoc,
      Nat.add_right_comm, Nat.add_assoc]

theorem length_offsets (q : Quote) (start : Nat) (cs : List Char) :
    (q.offsets backslash start cs).length = q.count backslash cs := by
  induction cs generalizing q start with
  | nil => rfl
  | cons c cs ih =>
    rw [offsets, List.length_append, ih, count_cons]
    split <;> rfl

/-- Where there is no placeholder there is no offset. -/
theorem offsets_of_count_eq_zero (start : Nat) (h : q.count backslash cs = 0) :
    q.offsets backslash start cs = [] := by
  rw [← List.length_eq_zero_iff, length_offsets, h]

/-- The offsets are those at which the pieces between the placeholders end. -/
theorem Cut.offsets_eq (h : Cut backslash q cs pieces) (start : Nat) :
    q.offsets backslash start cs = breaks start pieces := by
  induction h generalizing start with
  | last unmarked => rw [offsets_of_count_eq_zero start unmarked, breaks]
  | @mark q piece rest pieces unmarked outer cut ih =>
    have marked : outside.marks '?' = true := rfl
    have byte : '?'.utf8Size = 1 := rfl
    rw [offsets_append, offsets_of_count_eq_zero start unmarked, outer, offsets, if_pos marked,
      step_mark, byte, ih]
    cases cut <;> rfl

/-- The text is its pieces with question marks between them. -/
theorem Cut.joined (h : Cut backslash q cs pieces) : cs = List.intercalate ['?'] pieces := by
  induction h with
  | last unmarked => simp [List.intercalate]
  | mark unmarked outer cut ih =>
    rw [ih]
    cases cut <;> simp [List.intercalate]

/-- A numbered text has no placeholder, and its reading ends where that of the text ends. -/
theorem number_read (q : Quote) (next : Nat) (cs : List Char) :
    q.after backslash (q.number backslash next cs) = q.after backslash cs ∧
      q.count backslash (q.number backslash next cs) = 0 := by
  induction cs generalizing q next with
  | nil => exact ⟨rfl, rfl⟩
  | cons c cs ih =>
    by_cases marked : q.marks c = true
    · obtain ⟨rfl, rfl⟩ := marks_iff.1 marked
      have dollar : Plain ['$'] := by decide
      have numeral : Balanced backslash ('$' :: (toString next).toList) 0 :=
        .of_plain (plain_append_iff.2 ⟨dollar, plain_natText next⟩)
      have later := ih outside (next + 1)
      rw [number, if_pos marked, step_mark, after_append, count_append, numeral.ends,
        numeral.counts, later.1, later.2]
      exact ⟨rfl, rfl⟩
    · have later := ih (q.step backslash c) next
      rw [number, if_neg marked, after_cons, count_cons, if_neg marked, later.1, later.2]
      exact ⟨rfl, rfl⟩

end Quote

/-- The byte offsets of the placeholders of a statement. -/
def placeholderOffsets (backslash : Bool) (sql : String) : List Nat :=
  Quote.outside.offsets backslash 0 sql.toList

/-- The slices of a text between offsets, from `last` on, with the numbers from `next` on in place
of the byte at each offset. -/
def sliced (sql : String) : Nat → Nat → List Nat → String
  | last, _, [] => String.Pos.Raw.extract sql ⟨last⟩ sql.rawEndPos
  | last, next, offset :: offsets =>
    String.Pos.Raw.extract sql ⟨last⟩ ⟨offset⟩ ++ "$" ++ toString next ++
      sliced sql (offset + 1) (next + 1) offsets

/-- Slices that end where pieces end are the pieces. -/
theorem sliced_breaks (before : List Char) (next : Nat) (piece : List Char)
    (pieces : List (List Char)) :
    sliced (String.ofList (before ++ List.intercalate ['?'] (piece :: pieces)))
        (String.utf8Len before) next (Quote.breaks (String.utf8Len before) (piece :: pieces)) =
      String.ofList (Quote.numbered next (piece :: pieces)) := by
  induction pieces generalizing before next piece with
  | nil =>
    have slice := String.extract_of_valid before piece []
    have alone : List.intercalate ['?'] [piece] = piece := by simp [List.intercalate]
    rw [List.append_nil] at slice
    rw [alone, Quote.breaks, sliced, String.rawEndPos_ofList, String.utf8Len_append, slice,
      Quote.numbered]
  | cons second rest ih =>
    let others := List.intercalate ['?'] (second :: rest)
    have joined : List.intercalate ['?'] (piece :: second :: rest) = piece ++ '?' :: others := by
      simp [others, List.intercalate]
    have slice := String.extract_of_valid before piece ('?' :: others)
    rw [List.append_assoc] at slice
    have byte : String.utf8Len ['?'] = 1 := rfl
    have later := ih (before ++ piece ++ ['?']) (next + 1) second
    rw [String.utf8Len_append, String.utf8Len_append, byte, List.append_assoc, List.append_assoc,
      List.singleton_append] at later
    rw [joined, Quote.breaks, sliced, slice, later, Quote.numbered]
    apply String.toList_injective
    simp

/-- Numbering is slicing at the offsets of the placeholders. -/
theorem numberPlaceholders_eq_sliced (sql : String) :
    numberPlaceholders sql = sliced sql 0 1 (placeholderOffsets false sql) := by
  obtain ⟨pieces, cut⟩ := Quote.exists_cut false .outside sql.toList
  have joined := cut.joined
  rw [numberPlaceholders, placeholderOffsets, cut.number_eq, cut.offsets_eq]
  cases pieces with
  | nil => cases cut.length_eq
  | cons piece pieces =>
    have slices := sliced_breaks [] 1 piece pieces
    rw [List.nil_append, ← joined, String.ofList_toList] at slices
    exact slices.symm

/-- **Numbering is exact.** A numbered text is the text with its `k`-th placeholder, at the offset
where the scan finds it, written `$k`: the pieces between the placeholders stand unchanged and in
place, and cutting the text into slices at the offsets makes the same. It has no placeholder left,
numbering it again changes nothing, and its reading ends in the quote in which that of the text
ends. -/
theorem numbering_exact (sql : String) :
    (∃ pieces, sql.toList = List.intercalate ['?'] pieces ∧
      pieces.length = countPlaceholders false sql + 1 ∧
      placeholderOffsets false sql = Quote.breaks 0 pieces ∧
      (numberPlaceholders sql).toList = Quote.numbered 1 pieces) ∧
    numberPlaceholders sql = sliced sql 0 1 (placeholderOffsets false sql) ∧
    countPlaceholders false (numberPlaceholders sql) = 0 ∧
    numberPlaceholders (numberPlaceholders sql) = numberPlaceholders sql ∧
    Quote.outside.after false (numberPlaceholders sql).toList =
      Quote.outside.after false sql.toList := by
  obtain ⟨ends, counts⟩ := @Quote.number_read false .outside 1 sql.toList
  have text : (numberPlaceholders sql).toList = Quote.outside.number false 1 sql.toList := by
    rw [numberPlaceholders, String.toList_ofList]
  rw [← text] at ends counts
  refine ⟨?_, numberPlaceholders_eq_sliced sql, counts, ?_, ends⟩
  · obtain ⟨pieces, cut⟩ := Quote.exists_cut false .outside sql.toList
    exact ⟨pieces, cut.joined, cut.length_eq, cut.offsets_eq 0, text.trans (cut.number_eq 1)⟩
  · have unchanged := Quote.number_of_count_eq_zero 1 counts
    rw [numberPlaceholders, unchanged, String.ofList_toList]

end SqlFragments
