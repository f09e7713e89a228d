import Mathlib
import SqlFragments.Value.Wire

/-!
# Whole numbers in columns

A write ends in one of five ways (`WireFormat.Wrote`): whatever the value and the format, a write that
fails leaves what was written before, and one that puts bytes behind it was accepted by the column.

A whole number is written to a number column exactly if it is in the range of the column's width, and
what is written is read back as that number (`readTwosComplement_twosComplement`); to a text column it
is written in decimal digits. `Value.whole_exact_or_refused` says so for all numbers and all columns, in
every format of which that is known which is documented of the binary one.
-/

namespace SqlFragments

/-! ## Reading bytes -/

/-- The number that bytes stand for, most significant first. -/
def readBigEndian (bytes : List UInt8) : Nat :=
  bytes.foldl (fun n byte => n * 256 + byte.toNat) 0

/-- The whole number that bytes stand for as a two's complement: in the upper half of the numbers of
this width it is negative. -/
def readTwosComplement (bytes : List UInt8) : Int :=
  let n := readBigEndian bytes
  let size := 256 ^ bytes.length
  if 2 * n < size then n else n - (size : Nat)

/-- The text that bytes hold, read as a whole number. -/
def readDecimal? (bytes : List UInt8) : Option Int :=
  (String.fromUTF8? ⟨bytes.toArray⟩).bind String.toInt?

/-- Bytes that are read on from a number put it in front. -/
theorem foldl_bigEndian (width n start : Nat) :
    (bigEndian width n).foldl (fun n byte => n * 256 + byte.toNat) start =
      start * 256 ^ width + n % 256 ^ width := by
  induction width generalizing start with
  | zero => simp [bigEndian, Nat.mod_one]
  | succ width ih =>
    have digit : (UInt8.ofNat (n / 256 ^ width % 256)).toNat = n / 256 ^ width % 256 :=
      UInt8.toNat_ofNat_of_lt' (Nat.mod_lt _ (by decide))
    have split : n % 256 ^ (width + 1) = n % 256 ^ width + 256 ^ width * (n / 256 ^ width % 256) := by
      rw [Nat.pow_succ, Nat.mod_mul]
    rw [bigEndian, List.foldl_cons, Nat.pow_eq, digit, ih, split, Nat.pow_succ]
    ring

/-- Bytes are read back as the number that they were made from, as far as they go. -/
theorem readBigEndian_bigEndian (width n : Nat) :
    readBigEndian (bigEndian width n) = n % 256 ^ width := by
  rw [readBigEndian, foldl_bigEndian, Nat.zero_mul, Nat.zero_add]

/-- **A two's complement** is read back as the number that it was made from. -/
theorem readTwosComplement_twosComplement {width : Nat} {n : Int} (fits : fitsBytes width n = true) :
    readTwosComplement (twosComplement width n) = n := by
  obtain ⟨below, above⟩ := Bool.and_eq_true_iff.1 fits
  have below : n < (256 ^ width / 2 : Nat) := of_decide_eq_true below
  have above : -((256 ^ width / 2 : Nat) : Int) ≤ n := of_decide_eq_true above
  unfold readTwosComplement twosComplement
  rw [readBigEndian_bigEndian, length_bigEndian, Nat.pow_eq]
  generalize 256 ^ width = size at below above
  -- A negative number stands for the one that is a whole size above it.
  have residue : n.emod (size : Nat) = if n < 0 then n + (size : Nat) else n := by
    split
    · exact Int.emod_eq_add_self_emod.trans (Int.emod_eq_of_lt (by omega) (by omega))
    · exact Int.emod_eq_of_lt (by omega) (by omega)
  rw [residue]
  have inside : (if n < 0 then n + (size : Nat) else n).toNat < size := by
    split <;> omega
  rw [Nat.mod_eq_of_lt inside]
  dsimp only
  split <;> split <;> omega

/-- The range of a width. -/
theorem fitsBytes_iff (width : IntWidth) (n : Int) :
    fitsBytes width.bytes n = true ↔
      -2 ^ (8 * width.bytes - 1) ≤ n ∧ n < 2 ^ (8 * width.bytes - 1) := by
  have half : ((Nat.pow 256 width.bytes / 2 : Nat) : Int) = 2 ^ (8 * width.bytes - 1) := by
    cases width <;> rfl
  rw [fitsBytes, half, Bool.and_eq_true_iff, decide_eq_true_iff, decide_eq_true_iff]
  exact and_comm

/-- A text is read back from its bytes. -/
theorem fromUTF8?_textBytes (s : String) : String.fromUTF8? ⟨(textBytes s).toArray⟩ = some s :=
  dif_pos s.isValidUTF8

/-- **Decimal digits** are read back as the number that they were made from. -/
theorem readDecimal?_textBytes (n : Int) : readDecimal? (textBytes (toString n)) = some n := by
  rw [readDecimal?, fromUTF8?_textBytes]
  exact Int.toInt?_repr n

/-! ## Writes -/

namespace WireFormat

/-- A column that takes a kind of scalar takes values. -/
theorem takes_of_accepts {f : WireFormat} {kind : WireKind} {column : ColumnType}
    (taken : f.accepts kind column = true) : f.takes column = true := by
  have listed : kind ∈ WireKind.all := by
    cases kind with
    | whole width => cases width <;> decide
    | bool | single | double | text | timestamp | date => decide
  exact List.any_eq_true.2 ⟨kind, listed, taken⟩

/-- What a write of a value to a column comes to, and what is written then. -/
inductive Wrote (f : WireFormat) (v : Value) (column : ColumnType) (out : List UInt8) :
    Except EncodingError Presence → List UInt8 → Prop
  | null (none : v.wire? column = .ok none) : Wrote f v column out (.ok .null) out
  | unfit {e : EncodingError} (unfit : v.wire? column = .error e) :
    Wrote f v column out (.error e) out
  | refused {x : Wire} (wire : v.wire? column = .ok (some x))
    (other : f.accepts x.kind column = false) : Wrote f v column out (.error .wrongType) out
  | overflowing {x : Wire} {e : EncodingError} (wire : v.wire? column = .ok (some x))
    (taken : f.accepts x.kind column = true) (failed : f.bytes x column = .error e) :
    Wrote f v column out (.error e) out
  | written {x : Wire} {bytes : List UInt8} (wire : v.wire? column = .ok (some x))
    (taken : f.accepts x.kind column = true) (made : f.bytes x column = .ok bytes) :
    Wrote f v column out (.ok .present) (out ++ bytes)

/-- **Every write** ends in one of these ways. -/
theorem wrote (f : WireFormat) (v : Value) (column : ColumnType) (out : List UInt8) :
    f.Wrote v column out ((f.write v column).run.run out).1 ((f.write v column).run.run out).2 := by
  unfold write
  split
  · next none => exact .null none
  · next x wire =>
    unfold scalar
    by_cases taken : f.accepts x.kind column = true
    · rw [if_pos taken]
      split
      · next bytes made => exact .written wire taken made
      · next e failed => exact .overflowing wire taken failed
    · rw [if_neg taken]
      exact .refused wire (Bool.eq_false_iff.2 taken)
  · next e unfit => exact .unfit unfit

variable {f : WireFormat} {v : Value} {column : ColumnType} {out written : List UInt8}
  {answer : Except EncodingError Presence}

/-- A write that fails leaves what was written before. -/
theorem Wrote.eq_of_error {e : EncodingError} (h : f.Wrote v column out (.error e) written) :
    written = out := by
  cases h with
  | unfit | refused | overflowing => rfl

/-- What is written to a column was accepted by it. -/
theorem Wrote.takes (h : f.Wrote v column out (.ok .present) written) : f.takes column = true := by
  cases h with
  | written wire taken made => exact takes_of_accepts taken

end WireFormat

namespace Value

/-! ## Whole numbers -/

/-- A number column gets the number in its width. -/
theorem intWire_of_width (n : Int64) (width : IntWidth) :
    intWire n width.column = narrowed width n := by
  cases width with
  | two | four => rfl
  | eight =>
    have fits : fitsBytes IntWidth.eight.bytes n.toInt = true := (Whole.ofInt64 n).fits
    rw [narrowed, Whole.narrow?, dif_pos fits]
    rfl

variable {f : WireFormat}

/-- A number column gets the bytes of a number that fits, and no others. -/
theorem write_int_of_width (documented : f.Documented) (n : Int64) (width : IntWidth)
    (out : List UInt8) :
    (f.write (int n) width.column).run.run out =
      if fitsBytes width.bytes n.toInt then
        (.ok .present, out ++ twosComplement width.bytes n.toInt)
      else (.error .outOfRange, out) := by
  rw [WireFormat.write, wire?, intWire_of_width, narrowed, Whole.narrow?]
  by_cases fits : fitsBytes width.bytes n.toInt = true
  · let whole : Whole := ⟨width, n.toInt, fits⟩
    have taken : f.accepts (Wire.whole whole).kind width.column = true :=
      (documented.whole_accepted width _).2 rfl
    have made : f.bytes (.whole whole) width.column = .ok (twosComplement width.bytes n.toInt) :=
      documented.whole_bytes whole
    rw [dif_pos fits, if_pos fits]
    dsimp only [Except.map]
    rw [WireFormat.scalar, if_pos taken, made]
    rfl
  · rw [dif_neg fits, if_neg fits]
    rfl

/-- A text column that takes whole numbers gets decimal digits. -/
theorem write_int_of_text (documented : f.Documented) (n : Int64) {column : ColumnType}
    (text : column = .text ∨ column = .varchar) (out : List UInt8) :
    (f.write (int n) column).run.run out =
      (.ok .present, out ++ textBytes (toString n.toInt)) := by
  have wire : (int n).wire? column = .ok (some (.text (toString n.toInt))) := by
    rcases text with rfl | rfl <;> rfl
  have taken : f.accepts (Wire.text (toString n.toInt)).kind column = true :=
    documented.text_accepted column text
  rw [WireFormat.write, wire]
  dsimp only
  rw [WireFormat.scalar, if_pos taken, documented.text_bytes _ column text]
  rfl

/-- The columns that whole numbers are written to. -/
def intColumns : List ColumnType := [.int2, .int4, .int8, .float4, .float8, .text, .varchar]

/-- Other columns get nothing. -/
theorem write_int_of_other (documented : f.Documented) (n : Int64) {column : ColumnType}
    (other : column ∉ intColumns) (out : List UInt8) :
    (f.write (int n) column).run.run out = (.error .wrongType, out) := by
  have wire : (int n).wire? column = .ok (some (.whole (.ofInt64 n))) := by
    cases column with
    | bool | bpchar | name | unknown | citext | ltree | lquery | ltxtquery | timestamp | date
    | other => rfl
    | int2 | int4 | int8 | float4 | float8 | text | varchar => simp [intColumns] at other
  have refused : ¬ f.accepts (Wire.whole (.ofInt64 n)).kind column = true := by
    intro taken
    rw [(documented.whole_accepted .eight column).1 taken] at other
    exact other (by decide)
  rw [WireFormat.write, wire]
  dsimp only
  rw [WireFormat.scalar, if_neg refused]
  rfl

/-- A whole number is never taken for the SQL NULL. -/
theorem write_int_ne_null (f : WireFormat) (n : Int64) (column : ColumnType) (out : List UInt8) :
    ((f.write (int n) column).run.run out).1 ≠ .ok .null := by
  have wrote := f.wrote (int n) column out
  generalize ((f.write (int n) column).run.run out).1 = answer,
    ((f.write (int n) column).run.run out).2 = written at wrote ⊢
  rintro rfl
  cases wrote with
  | null none =>
    rw [wire?] at none
    cases made : intWire n column <;> rw [made] at none <;> cases none

/-- **Whole numbers are written exactly or refused**, in any format of which that is known which is
documented of the binary one. A column with a width for whole numbers gets one exactly if it is in the
range of the width, in as many bytes, which are read back as the number; else the number is refused as
out of range. A column of text gets the number in decimal digits, and reading them gives it back. A
column that is for neither whole numbers, nor numbers with a point, nor such text refuses it as of the
wrong type. What is refused leaves what was written before, and a column that gets the number is one
that accepts values. -/
theorem whole_exact_or_refused (documented : f.Documented) (n : Int64) (column : ColumnType)
    (out : List UInt8) :
    let answer := ((f.write (int n) column).run.run out).1
    let written := ((f.write (int n) column).run.run out).2
    (∀ width : IntWidth, column = width.column →
      (answer = .ok .present ↔
        -2 ^ (8 * width.bytes - 1) ≤ n.toInt ∧ n.toInt < 2 ^ (8 * width.bytes - 1)) ∧
      (answer = .ok .present → ∃ bytes, written = out ++ bytes ∧ bytes.length = width.bytes ∧
        readTwosComplement bytes = n.toInt) ∧
      (answer ≠ .ok .present → answer = .error .outOfRange)) ∧
    (column = .text ∨ column = .varchar →
      answer = .ok .present ∧ written = out ++ textBytes (toString n.toInt) ∧
        readDecimal? (textBytes (toString n.toInt)) = some n.toInt) ∧
    (column ∉ intColumns → answer = .error .wrongType) ∧
    (∀ e, answer = .error e → written = out) ∧
    (∀ presence, answer = .ok presence → f.takes column = true) := by
  intro answer written
  have wrote : f.Wrote (int n) column out answer written := f.wrote (int n) column out
  refine ⟨?_, ?_, ?_, ?_, ?_⟩
  · rintro width rfl
    have outcome : (answer, written) = _ := write_int_of_width documented n width out
    rw [← fitsBytes_iff]
    by_cases fits : fitsBytes width.bytes n.toInt = true
    · rw [if_pos fits] at outcome
      obtain ⟨answered, appended⟩ := Prod.mk.inj outcome
      refine ⟨iff_of_true answered fits, fun _ => ⟨_, appended, ?_, ?_⟩,
        fun refused => absurd answered refused⟩
      · exact length_bigEndian _ _
      · exact readTwosComplement_twosComplement fits
    · rw [if_neg fits] at outcome
      obtain ⟨answered, -⟩ := Prod.mk.inj outcome
      have refused : answer ≠ .ok .present := by
        rw [answered]
        exact nofun
      exact ⟨iff_of_false refused fits, fun taken => absurd taken refused, fun _ => answered⟩
  · intro text
    have outcome : (answer, written) = _ := write_int_of_text documented n text out
    obtain ⟨answered, appended⟩ := Prod.mk.inj outcome
    exact ⟨answered, appended, readDecimal?_textBytes n.toInt⟩
  · intro other
    have outcome : (answer, written) = _ := write_int_of_other documented n other out
    exact (Prod.mk.inj outcome).1
  · intro e failed
    rw [failed] at wrote
    exact wrote.eq_of_error
  · intro presence answered
    cases presence with
    | null => exact absurd answered (write_int_ne_null f n column out)
    | present =>
      rw [answered] at wrote
      exact wrote.takes

/-- In the binary format the least number of two bytes is written behind a byte that stands there, and
the next one below is refused and leaves it. -/
theorem leastOfTwoBytes_written :
    let f := WireFormat.binary
    f.Documented ∧
      ∃ bytes, ((f.write (int (-32768)) .int2).run.run [7]).2 = 7 :: bytes ∧ bytes.length = 2 ∧
        readTwosComplement bytes = -32768 ∧
        ((f.write (int (-32769)) .int2).run.run [7]).1 = .error .outOfRange ∧
        ((f.write (int (-32769)) .int2).run.run [7]).2 = [7] := by
  intro f
  have documented : f.Documented := WireFormat.documented_binary
  obtain ⟨least, -⟩ := whole_exact_or_refused documented (-32768) .int2 [7]
  obtain ⟨below, -, -, kept, -⟩ := whole_exact_or_refused documented (-32769) .int2 [7]
  obtain ⟨fits, taken, -⟩ := least .two rfl
  obtain ⟨unfit, -, refused⟩ := below .two rfl
  obtain ⟨bytes, appended, length, read⟩ := taken (fits.2 (by decide))
  have answered := refused fun answered => absurd (unfit.1 answered) (by decide)
  exact ⟨documented, bytes, appended, length, read, answered, kept _ answered⟩

end Value

end SqlFragments
