/-!
# Binary floating point

The numbers of the two IEEE-754 formats a column can hold, read from their bits: a finite number is
`m · 2 ^ q`. All arithmetic is on natural numbers, so a conversion rounds exactly once, to nearest
with ties to the even neighbour.
-/

namespace SqlFragments.Number

/-- A binary format: how many binary digits a significand has, the exponent of the last digit of the
smallest numbers, and the width of the exponent field. -/
structure Format where
  precision : Nat
  lowest : Int
  exponentBits : Nat
  deriving DecidableEq, Repr

/-- Single precision. -/
def binary32 : Format := ⟨24, -149, 8⟩

/-- Double precision. -/
def binary64 : Format := ⟨53, -1074, 11⟩

/-- The number of a format's fraction bits. -/
def Format.fractionSize (f : Format) : Nat := Nat.pow 2 (f.precision - 1)

/-- The exponent field of infinities and of what is not a number. -/
def Format.topField (f : Format) : Nat := Nat.pow 2 f.exponentBits - 1

/-- The bits of positive infinity. -/
def Format.infinityBits (f : Format) : Nat := f.topField * f.fractionSize

/-- The value of the sign bit. -/
def Format.signBit (f : Format) : Nat := Nat.pow 2 f.exponentBits * f.fractionSize

/-- What the bits of a number stand for. -/
inductive Reading where
  | finite (negative : Bool) (m : Nat) (q : Int)
  | infinite (negative : Bool)
  | nan (negative : Bool) (payload : Nat)
  deriving DecidableEq, Repr

/-- Reads the bits of a format. -/
def Format.read (f : Format) (bits : Nat) : Reading :=
  let negative := bits / f.signBit % 2 == 1
  let field := bits / f.fractionSize % Nat.pow 2 f.exponentBits
  let fraction := bits % f.fractionSize
  if field = f.topField then
    if fraction = 0 then .infinite negative else .nan negative fraction
  else if field = 0 then .finite negative fraction f.lowest
  else .finite negative (fraction + f.fractionSize) (f.lowest + (field - 1 : Nat))

/-- The quotient rounded to the nearest whole number, a half to the even one. -/
def halfEven (n d : Nat) : Nat :=
  let whole := n / d
  let rest := n % d
  if 2 * rest < d then whole
  else if d < 2 * rest then whole + 1
  else if whole % 2 = 0 then whole else whole + 1

/-- The bits of the number of a format nearest to `m · 2 ^ q`; too large a number is infinite. The
exponent that a significand has to carry adds itself to the field, so a significand rounded up to a
power of two needs no second step. -/
def Format.round (f : Format) (negative : Bool) (m : Nat) (q : Int) : Nat :=
  let sign := if negative then f.signBit else 0
  let size : Int := if m = 0 then 0 else (m.log2 + 1 : Nat)
  let exponent := max (q + size - f.precision) f.lowest
  let significand :=
    if exponent ≤ q then m * Nat.pow 2 (q - exponent).toNat
    else halfEven m (Nat.pow 2 (exponent - q).toNat)
  let magnitude := (exponent - f.lowest).toNat * f.fractionSize + significand
  sign + (if m = 0 then 0 else min magnitude f.infinityBits)

/-- The bits of the other format for the same number. What is not a number stays so, made quiet, and
keeps the leading bits of its payload. -/
def Format.convert (source target : Format) (bits : Nat) : Nat :=
  match source.read bits with
  | .finite negative m q => target.round negative m q
  | .infinite negative => (if negative then target.signBit else 0) + target.infinityBits
  | .nan negative payload =>
    let moved :=
      if source.precision ≤ target.precision then
        payload * Nat.pow 2 (target.precision - source.precision)
      else payload / Nat.pow 2 (source.precision - target.precision)
    let quiet := target.fractionSize / 2
    (if negative then target.signBit else 0) + target.infinityBits + quiet + moved % quiet

/-- A number in double precision, held as its bits. -/
structure Double where
  bits : UInt64
  deriving DecidableEq, Repr

/-- What the number is. -/
def Double.read (x : Double) : Reading := binary64.read x.bits.toNat

/-- The double with the value of a number in single precision. -/
def Double.ofSingleBits (bits : UInt32) : Double :=
  ⟨.ofNat (binary32.convert binary64 bits.toNat)⟩

/-- The bits of the nearest number in single precision. -/
def Double.toSingleBits (x : Double) : UInt32 :=
  .ofNat (binary64.convert binary32 x.bits.toNat)

/-- The double nearest to a whole number. -/
def Double.ofInt (n : Int) : Double :=
  ⟨.ofNat (binary64.round (n < 0) n.natAbs 0)⟩

/-- The bits of the number in single precision nearest to a whole number. -/
def singleBitsOfInt (n : Int) : UInt32 :=
  .ofNat (binary32.round (n < 0) n.natAbs 0)

end SqlFragments.Number
