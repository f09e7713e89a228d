import SqlFragments.Text.Blank
import SqlFragments.Text.Pieces

/-!
# Versions

A version is a list of numbers such as `8.0.35`, of any length. A missing number counts as zero, so
a version keeps no zeros at its end and two versions that differ only there are equal. Versions are
ordered number by number.

`Version.ofText` reads the numbers that a text starts with and leaves out what a vendor appends.
-/

namespace SqlFragments

/-- The numbers of a version without zeros at the end. -/
def dropTrailingZeros (parts : List UInt64) : List UInt64 :=
  (parts.reverse.dropWhile (· == 0)).reverse

theorem getLast?_dropTrailingZeros (parts : List UInt64) :
    (dropTrailingZeros parts).getLast? ≠ some 0 := by
  rw [dropTrailingZeros, List.getLast?_reverse]
  intro h
  have := List.head?_dropWhile_not (· == (0 : UInt64)) parts.reverse
  simp [h] at this

/-- A version number. -/
structure Version where
  parts : List UInt64
  trimmed : parts.getLast? ≠ some 0 := by decide
  deriving DecidableEq

namespace Version

/-- The version with these numbers. -/
def ofParts (parts : List UInt64) : Version :=
  ⟨dropTrailingZeros parts, getLast?_dropTrailingZeros parts⟩

/-- The version below all others, which stands for any. -/
def zero : Version := ⟨[], by decide⟩

instance : Inhabited Version := ⟨zero⟩

/-- Whether the version stands for any. -/
def isZero (v : Version) : Bool := v.parts.isEmpty

/-- Number by number from the left; a list that ends first is smaller. -/
def compareParts : List UInt64 → List UInt64 → Ordering
  | [], [] => .eq
  | [], _ :: _ => .lt
  | _ :: _, [] => .gt
  | a :: as, b :: bs =>
    match compare a.toNat b.toNat with
    | .eq => compareParts as bs
    | order => order

/-- The order of versions. As no list ends in zero, a longer list is greater by a number above zero.
-/
def compare (a b : Version) : Ordering := compareParts a.parts b.parts

instance : Ord Version := ⟨compare⟩

/-- The numbers with points between them; the version zero is `0`. -/
def text (v : Version) : String :=
  if v.parts.isEmpty then "0" else Text.separated "." (v.parts.map fun p => toString p.toNat)

/-- The first number too large for a part of a version. -/
def partLimit : Nat := UInt64.size

/-- The number that decimal digits stand for. -/
def digitsValue (digits : List Char) : Nat :=
  digits.foldl (fun n c => n * 10 + (c.toNat - '0'.toNat)) 0

/-- The numbers that the pieces between points start with, up to a piece without digits, a number
too large for a part, or a piece with more than digits, whose number still counts. -/
def leadingParts : List (List Char) → List UInt64
  | [] => []
  | piece :: rest =>
    let digits := piece.takeWhile Char.isDigit
    let n := digitsValue digits
    if digits.isEmpty ∨ partLimit ≤ n then []
    else .ofNat n :: (if digits.length = piece.length then leadingParts rest else [])

/-- Reads the version that a text starts with, after white space; a text that starts with no number
is the version zero. -/
def ofText (s : String) : Version :=
  ofParts (leadingParts (Text.splitOn '.' (Text.trimChars s.toList)))

end Version

end SqlFragments
