import Mathlib.Data.List.DropRight
import SqlFragments.Version

/-!
# Reading versions

What is read from a text is the version that stands at its beginning, behind white space: the text of
a version gives the version back, whatever a vendor appends that does not go on with a number, at once
or behind a point (`Version.read_between`).

A text is read number by number. Digits in front of what is no digit are one number
(`leadingParts_number`), and the numbers of a version stand with points between them
(`leadingParts_numbers`). None of this is blank, so trimming takes the white space in front and leaves
a beginning of what follows (`Text.trimChars_between`).
-/

namespace SqlFragments

/-- Whether the text begins with a digit. -/
def startsWithDigit : List Char → Bool
  | c :: _ => c.isDigit
  | [] => false

/-- Whether the text goes on with a number, at once or behind a point. -/
def goesOnWithNumber : List Char → Bool
  | '.' :: rest => startsWithDigit rest
  | cs => startsWithDigit cs

/-- A beginning of a text that does not go on with a number does not either. -/
theorem goesOnWithNumber_of_start {cs ds : List Char} (start : cs <+: ds)
    (stops : goesOnWithNumber ds = false) : goesOnWithNumber cs = false := by
  obtain ⟨rest, rfl⟩ := start
  have shorter {as : List Char} (stops : startsWithDigit (as ++ rest) = false) :
      startsWithDigit as = false := by
    cases as with
    | nil => rfl
    | cons a as => exact stops
  unfold goesOnWithNumber at stops ⊢
  split
  · exact shorter stops
  · next other =>
    refine shorter ?_
    split at stops
    · next behind same =>
      cases cs with
      | nil =>
        rw [same]
        rfl
      | cons c cs =>
        obtain rfl := (List.cons.inj same).1
        exact absurd rfl (other cs)
    · exact stops

namespace Text

/-! ## Pieces and ends of a text -/

/-- What has no separator stands in front of the first piece. -/
theorem splitOn_append {sep : Char} {word cs piece : List Char} {pieces : List (List Char)}
    (inside : sep ∉ word) (split : splitOn sep cs = piece :: pieces) :
    splitOn sep (word ++ cs) = (word ++ piece) :: pieces := by
  induction word with
  | nil => exact split
  | cons c word ih =>
    rw [List.mem_cons, not_or] at inside
    rw [List.cons_append, splitOn, if_neg (Ne.symm inside.1), ih inside.2]
    rfl

/-- The first piece begins with a digit where the text does. -/
theorem startsWithDigit_splitOn {cs piece : List Char} {pieces : List (List Char)}
    (split : splitOn '.' cs = piece :: pieces) : startsWithDigit piece = startsWithDigit cs := by
  cases cs with
  | nil =>
    cases split
    rfl
  | cons c cs =>
    obtain ⟨first, rest, later⟩ := List.exists_cons_of_ne_nil (splitOn_ne_nil '.' cs)
    rw [splitOn, later] at split
    by_cases point : c = '.'
    · rw [if_pos point] at split
      cases split
      rw [point]
      rfl
    · rw [if_neg point] at split
      cases split
      rfl

theorem isBlank_of_isDigit {c : Char} (digit : c.isDigit = true) : isBlank c = false := by
  simp only [Char.isDigit, Bool.and_eq_true, decide_eq_true_eq, ge_iff_le, UInt32.le_iff_toNat_le]
    at digit
  have low : 48 ≤ c.toNat := digit.1
  have high : c.toNat ≤ 57 := digit.2
  simp only [isBlank, Bool.or_eq_false_iff, Bool.and_eq_false_imp, decide_eq_true_eq,
    decide_eq_false_iff_not, beq_eq_false_iff_ne]
  omega

/-- Trimming takes the blanks in front of a text, and leaves a beginning of what stands behind it. -/
theorem trimChars_between {blanks body : List Char} (behind : List Char)
    (blank : ∀ c ∈ blanks, isBlank c = true) (filled : body ≠ [])
    (shown : ∀ c ∈ body, isBlank c = false) :
    ∃ kept, kept <+: behind ∧ trimChars (blanks ++ (body ++ behind)) = body ++ kept := by
  have first : (body ++ behind).dropWhile isBlank = body ++ behind := by
    obtain ⟨c, cs, rfl⟩ := List.exists_cons_of_ne_nil filled
    exact List.dropWhile_cons_of_neg (by rw [shown c List.mem_cons_self]; exact Bool.false_ne_true)
  have last : body.reverse.dropWhile isBlank = body.reverse := by
    obtain ⟨c, cs, read⟩ := List.exists_cons_of_ne_nil (List.reverse_ne_nil_iff.2 filled)
    have member : c ∈ body := List.mem_reverse.1 (read ▸ List.mem_cons_self)
    rw [read]
    exact List.dropWhile_cons_of_neg (by rw [shown c member]; exact Bool.false_ne_true)
  refine ⟨behind.rdropWhile isBlank, List.rdropWhile_prefix _ _, ?_⟩
  rw [trimChars, List.dropWhile_append_of_pos blank, first, List.reverse_append,
    List.dropWhile_append, last, List.rdropWhile]
  split
  · next ended =>
    rw [List.isEmpty_iff.1 ended]
    simp
  · simp

end Text

namespace Version

/-! ## Numbers -/

theorem digitsValue_toList_toString (n : Nat) : digitsValue (toString n).toList = n := by
  rw [Nat.toString_eq_repr, Nat.toList_repr, digitsValue]
  have read := Nat.ofDigitChars_ten_toDigits (n := n)
  rw [Nat.ofDigitChars_eq_foldl] at read
  simpa only [Nat.mul_comm] using read

theorem isDigit_of_mem_toString {n : Nat} {c : Char} (member : c ∈ (toString n).toList) :
    c.isDigit = true := by
  rw [Nat.toString_eq_repr, Nat.toList_repr] at member
  exact Nat.isDigit_of_mem_toDigits (by decide) (by decide) member

theorem toList_toString_ne_nil (n : Nat) : (toString n).toList ≠ [] := by
  rw [Nat.toString_eq_repr, Nat.toList_repr]
  exact Nat.toDigits_ne_nil

theorem takeWhile_of_no_digit {cs : List Char} (other : startsWithDigit cs = false) :
    cs.takeWhile Char.isDigit = [] := by
  cases cs with
  | nil => rfl
  | cons c cs => exact List.takeWhile_cons_of_neg (Bool.eq_false_iff.1 other)

/-- Nothing is read where no digit stands. -/
theorem leadingParts_of_no_digit {cs : List Char} (other : startsWithDigit cs = false) :
    leadingParts (Text.splitOn '.' cs) = [] := by
  obtain ⟨piece, pieces, split⟩ := List.exists_cons_of_ne_nil (Text.splitOn_ne_nil '.' cs)
  rw [← Text.startsWithDigit_splitOn split] at other
  rw [split, leadingParts, takeWhile_of_no_digit other, if_pos (.inl rfl)]

/-- **One number** is read up to what is no digit. The text is read on if its piece ends there. -/
theorem leadingParts_number (n : UInt64) {cs piece : List Char} {pieces : List (List Char)}
    (ends : startsWithDigit cs = false) (split : Text.splitOn '.' cs = piece :: pieces) :
    leadingParts (Text.splitOn '.' ((toString n.toNat).toList ++ cs)) =
      n :: if piece = [] then leadingParts pieces else [] := by
  have digits : ∀ c ∈ (toString n.toNat).toList, c.isDigit = true :=
    fun c => isDigit_of_mem_toString
  have pointless : '.' ∉ (toString n.toNat).toList := fun member => nomatch digits '.' member
  have apart : startsWithDigit piece = false := (Text.startsWithDigit_splitOn split).trans ends
  have taken : ((toString n.toNat).toList ++ piece).takeWhile Char.isDigit =
      (toString n.toNat).toList := by
    rw [List.takeWhile_append_of_pos digits, takeWhile_of_no_digit apart, List.append_nil]
  have small : ¬ ((toString n.toNat).toList.isEmpty = true ∨ partLimit ≤ n.toNat) := by
    rintro (empty | large)
    · exact toList_toString_ne_nil _ (List.isEmpty_iff.1 empty)
    · exact absurd n.toNat_lt (Nat.not_lt.2 large)
  rw [Text.splitOn_append pointless split, leadingParts, taken, digitsValue_toList_toString,
    if_neg small, UInt64.ofNat_toNat]
  simp only [List.length_append, Nat.left_eq_add, List.length_eq_zero_iff]

/-- The text is read on behind a point. -/
theorem leadingParts_point (n : UInt64) (cs : List Char) :
    leadingParts (Text.splitOn '.' ((toString n.toNat).toList ++ '.' :: cs)) =
      n :: leadingParts (Text.splitOn '.' cs) := by
  have split : Text.splitOn '.' ('.' :: cs) = [] :: Text.splitOn '.' cs := if_pos rfl
  rw [leadingParts_number n rfl split, if_pos rfl]

/-- A number is the last one where the text does not go on with a number. -/
theorem leadingParts_last (n : UInt64) {cs : List Char} (stops : goesOnWithNumber cs = false) :
    leadingParts (Text.splitOn '.' ((toString n.toNat).toList ++ cs)) = [n] := by
  unfold goesOnWithNumber at stops
  split at stops
  · rw [leadingParts_point, leadingParts_of_no_digit stops]
  · next other =>
    obtain ⟨piece, pieces, split⟩ := List.exists_cons_of_ne_nil (Text.splitOn_ne_nil '.' cs)
    rw [leadingParts_number n stops split]
    cases cs with
    | nil =>
      cases split
      rfl
    | cons c cs =>
      -- The piece goes on with what is neither a digit nor a point.
      have point : c ≠ '.' := fun same => other cs (by rw [same])
      obtain ⟨first, rest, later⟩ := List.exists_cons_of_ne_nil (Text.splitOn_ne_nil '.' cs)
      rw [Text.splitOn, if_neg point, later] at split
      cases split
      rw [if_neg (List.cons_ne_nil c first)]

/-- **Numbers** with points between them are read one after another. -/
theorem leadingParts_numbers {parts : List UInt64} (some : parts ≠ []) {cs : List Char}
    (stops : goesOnWithNumber cs = false) :
    leadingParts (Text.splitOn '.'
      ((Text.separated "." (parts.map fun p => toString p.toNat)).toList ++ cs)) = parts := by
  induction parts with
  | nil => exact absurd rfl some
  | cons p parts ih =>
    cases parts with
    | nil => exact leadingParts_last p stops
    | cons next parts =>
      have row : (Text.separated "." ((p :: next :: parts).map fun p => toString p.toNat)).toList =
          (toString p.toNat).toList ++
            '.' :: (Text.separated "." ((next :: parts).map fun p => toString p.toNat)).toList := by
        rw [List.map_cons, List.map_cons, Text.separated, String.toList_append,
          String.toList_append, List.append_assoc]
        rfl
      rw [row, List.append_assoc, List.cons_append, leadingParts_point, ih (List.cons_ne_nil _ _)]

/-! ## Texts of versions -/

/-- A version is made from the numbers that it keeps. -/
theorem ofParts_parts (v : Version) : ofParts v.parts = v := by
  obtain ⟨parts, trimmed⟩ := v
  have kept : dropTrailingZeros parts = parts := by
    unfold dropTrailingZeros
    rw [List.reverse_eq_iff]
    cases read : parts.reverse with
    | nil => rfl
    | cons last others =>
      refine List.dropWhile_cons_of_neg fun zero => trimmed ?_
      rw [← List.head?_reverse, read, List.head?_cons, eq_of_beq zero]
  unfold ofParts
  simp only [kept]

/-- The text of a version is read, up to what does not go on with a number. -/
theorem ofParts_leadingParts_text (v : Version) {cs : List Char}
    (stops : goesOnWithNumber cs = false) :
    ofParts (leadingParts (Text.splitOn '.' (v.text.toList ++ cs))) = v := by
  by_cases none : v.parts = []
  · -- The version zero is written as a number, which is dropped again.
    have zero : v.text.toList = (toString (0 : UInt64).toNat).toList := by
      rw [text, if_pos (List.isEmpty_iff.2 none)]
      rfl
    rw [zero, leadingParts_last 0 stops, ← v.ofParts_parts, none]
    rfl
  · rw [text, if_neg fun empty => none (List.isEmpty_iff.1 empty), leadingParts_numbers none stops,
      ofParts_parts]

theorem separated_numbers_ne_nil (p : UInt64) (parts : List UInt64) :
    (Text.separated "." ((p :: parts).map fun p => toString p.toNat)).toList ≠ [] := by
  cases parts with
  | nil => exact toList_toString_ne_nil _
  | cons next parts =>
    rw [List.map_cons, List.map_cons, Text.separated, String.toList_append, String.toList_append]
    simp

/-- Numbers with points between them are written with digits and points. -/
theorem digit_or_point_of_mem {parts : List UInt64} {c : Char}
    (member : c ∈ (Text.separated "." (parts.map fun p => toString p.toNat)).toList) :
    c.isDigit = true ∨ c = '.' := by
  induction parts with
  | nil => cases member
  | cons p parts ih =>
    cases parts with
    | nil => exact .inl (isDigit_of_mem_toString member)
    | cons next parts =>
      rw [List.map_cons, List.map_cons, Text.separated, String.toList_append,
        String.toList_append, List.mem_append, List.mem_append] at member
      rcases member with (first | point) | later
      · exact .inl (isDigit_of_mem_toString first)
      · exact .inr (List.mem_singleton.1 point)
      · exact ih later

/-- The text of a version has a character, and no blank one. -/
theorem text_shown (v : Version) :
    v.text.toList ≠ [] ∧ ∀ c ∈ v.text.toList, Text.isBlank c = false := by
  unfold text
  cases v.parts with
  | nil => exact ⟨List.cons_ne_nil _ _, List.forall_mem_singleton.2 rfl⟩
  | cons p parts =>
    refine ⟨separated_numbers_ne_nil p parts, fun c member => ?_⟩
    rcases digit_or_point_of_mem member with digit | rfl
    · exact Text.isBlank_of_isDigit digit
    · rfl

/-- **Reading undoes writing.** The text of a version, behind any white space and in front of whatever
does not go on with a number, at once or behind a point, is read as that version. So is the text
alone. -/
theorem read_between (v : Version) (blanks suffix : String)
    (blank : ∀ c ∈ blanks.toList, Text.isBlank c = true)
    (stops : goesOnWithNumber suffix.toList = false) :
    ofText (blanks ++ v.text ++ suffix) = v ∧ ofText v.text = v := by
  obtain ⟨filled, shown⟩ := v.text_shown
  have read (blanks behind : List Char) (blank : ∀ c ∈ blanks, Text.isBlank c = true)
      (stops : goesOnWithNumber behind = false) :
      ofParts (leadingParts (Text.splitOn '.'
        (Text.trimChars (blanks ++ (v.text.toList ++ behind))))) = v := by
    obtain ⟨kept, start, trimmed⟩ := Text.trimChars_between behind blank filled shown
    rw [trimmed]
    exact v.ofParts_leadingParts_text (goesOnWithNumber_of_start start stops)
  constructor
  · rw [ofText, String.toList_append, String.toList_append, List.append_assoc]
    exact read _ _ blank stops
  · have alone := read [] [] (List.forall_mem_nil _) rfl
    rw [List.nil_append, List.append_nil] at alone
    exact alone

/-- The greatest number, a zero between numbers, blanks that are not ASCII and a suffix with points
and numbers of its own. -/
theorem packagedVersion_read :
    (∀ c ∈ "\u00A0\t".toList, Text.isBlank c = true) ∧
      goesOnWithNumber ".x-0ubuntu0.22.04.1 ".toList = false ∧
      ofText "\u00A0\t18446744073709551615.0.35.x-0ubuntu0.22.04.1 " =
        ofParts [18446744073709551615, 0, 35] := by
  have blank : ∀ c ∈ "\u00A0\t".toList, Text.isBlank c = true :=
    List.all_eq_true.1 (by decide)
  have stops : goesOnWithNumber ".x-0ubuntu0.22.04.1 ".toList = false := by decide
  exact ⟨blank, stops, (read_between (ofParts [18446744073709551615, 0, 35]) _ _ blank stops).1⟩

end Version

end SqlFragments
