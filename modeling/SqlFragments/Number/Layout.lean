import SqlFragments.Number.Shortest
import SqlFragments.Text.Pieces

/-!
# The text of a floating-point number

A `Layout` decides how the shortest digits of a number are set out: between which exponents the
number is written out in full, whether a whole number shows a fraction, whether a positive exponent
shows its sign, and which of two equally near decimals is shown. The three layouts in use are
`plain`, `json` and `dump`.
-/

namespace SqlFragments.Number

/-- How the digits of a number are set out. `full` is the range of exponents of the leading digit
that are written in full, the upper end excluded; without it every number is. -/
structure Layout where
  full : Option (Int × Int)
  pointZero : Bool
  plusSign : Bool
  tie : Tie

/-- Every number in full, and no fraction on a whole number. -/
def Layout.plain : Layout := ⟨none, false, false, .greater⟩

/-- Exponents from `1e-6` down and from `1e+16` up, and always a fraction or an exponent. -/
def Layout.json : Layout := ⟨some (-5, 16), true, true, .even⟩

/-- Exponents from `1e-5` down and from `1e16` up, and always a fraction or an exponent. -/
def Layout.dump : Layout := ⟨some (-4, 16), true, false, .greater⟩

/-- A run of zeros. -/
def zeros (n : Nat) : String := String.ofList (List.replicate n '0')

/-- The digits in full, where the leading digit stands for `10 ^ leading`. -/
def Layout.positional (l : Layout) (digits : List Char) (leading : Int) : String :=
  let before := (leading + 1).toNat
  let fraction :=
    zeros (-(leading + 1)).toNat ++ String.ofList (digits.drop before)
  let whole :=
    if before = 0 then "0"
    else String.ofList (digits.take before) ++ zeros (before - digits.length)
  if fraction.isEmpty then (if l.pointZero then whole ++ ".0" else whole)
  else whole ++ "." ++ fraction

/-- The digits with one before the point, and an exponent. -/
def Layout.scientific (l : Layout) (digits : List Char) (leading : Int) : String :=
  let mark := if 0 ≤ leading ∧ l.plusSign then "e+" else "e"
  let fraction := digits.drop 1
  String.ofList (digits.take 1) ++
    (if fraction.isEmpty then "" else "." ++ String.ofList fraction) ++ mark ++ toString leading

/-- The digits of a decimal without the zeros at their end. -/
def significant (digits : List Char) : List Char :=
  (digits.reverse.dropWhile (· == '0')).reverse

/-- The text of the magnitude `m · 2 ^ q`. -/
def Layout.magnitude (l : Layout) (m : Nat) (q : Int) : String :=
  if m = 0 then (if l.pointZero then "0.0" else "0")
  else
    let d := shortest l.tie m q
    let written := digitChars d.digits
    let leading := d.exponent + written.length - 1
    let digits := significant written
    match l.full with
    | none => l.positional digits leading
    | some (first, last) =>
      if first ≤ leading ∧ leading < last then l.positional digits leading
      else l.scientific digits leading

/-- The text of a number; zero keeps its sign. -/
def Layout.text (l : Layout) (x : Double) : String :=
  match x.read with
  | .finite negative m q => (if negative then "-" else "") ++ l.magnitude m q
  | .infinite negative => if negative then "-inf" else "inf"
  | .nan _ _ => "NaN"

end SqlFragments.Number
