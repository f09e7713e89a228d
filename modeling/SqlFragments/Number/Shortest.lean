import SqlFragments.Number.Binary

/-!
# The fewest decimal digits

`shortest` finds the decimal with the fewest digits among those that round to a given double, and of
these the nearest. A decimal rounds to `m · 2 ^ q` when it lies between the middles of that number
and its two neighbours; the middles themselves count when `m` is even. On the grid of decimals with
a given number of digits only the two neighbours of the number have to be tried, because if any
decimal of the grid lies between the middles, one of them does. When both do and the number is
halfway between them, a `Tie` says which is taken.
-/

namespace SqlFragments.Number

/-- A decimal `digits · 10 ^ exponent`. -/
structure Decimal where
  digits : Nat
  exponent : Int
  deriving DecidableEq, Repr

/-- Which of two equally near decimals is taken: the one with an even last digit, or the greater. -/
inductive Tie where
  | even
  | greater
  deriving DecidableEq, Repr

/-- The decimal digits of a number, most significant first. -/
def digitChars (n : Nat) : List Char := (toString n).toList

/-- A number and the interval of what rounds to it, as numerators over one denominator. -/
structure Interval where
  low : Nat
  value : Nat
  high : Nat
  denominator : Nat
  closed : Bool

/-- The interval around `m · 2 ^ q`. Below a power of two the numbers lie half as far apart, unless
the power is the least one. -/
def Interval.around (m : Nat) (q : Int) : Interval :=
  let below := if m = binary64.fractionSize ∧ binary64.lowest < q then 1 else 2
  let scale := Nat.pow 2 (q - 2).toNat
  { low := (4 * m - below) * scale
    value := 4 * m * scale
    high := (4 * m + 2) * scale
    denominator := Nat.pow 2 (2 - q).toNat
    closed := m % 2 == 0 }

/-- Whether the decimal lies in the interval. -/
def Interval.holds (i : Interval) (d : Decimal) : Bool :=
  let x := d.digits * Nat.pow 10 d.exponent.toNat * i.denominator
  let scale := Nat.pow 10 (-d.exponent).toNat
  if i.closed then i.low * scale ≤ x && x ≤ i.high * scale
  else i.low * scale < x && x < i.high * scale

/-- The place after which every double is written out, `10 ^ -finest`. -/
def finest : Nat := 400

/-- How many digits the number has before the point; it is negative when zeros follow the point. -/
def Interval.magnitude (i : Interval) : Int :=
  ((digitChars (i.value * Nat.pow 10 finest / i.denominator)).length : Int) - finest

/-- The nearer neighbour of the number on the grid of multiples of `10 ^ exponent`, if one of the
two neighbours lies in the interval. -/
def Interval.onGrid (i : Interval) (tie : Tie) (exponent : Int) : Option Decimal :=
  let n := i.value * Nat.pow 10 (-exponent).toNat
  let d := i.denominator * Nat.pow 10 exponent.toNat
  let below : Decimal := ⟨n / d, exponent⟩
  let above : Decimal := ⟨n / d + 1, exponent⟩
  match i.holds below, i.holds above with
  | false, false => none
  | true, false => some below
  | false, true => some above
  | true, true =>
    let rest := n % d
    if 2 * rest < d then some below
    else if d < 2 * rest then some above
    else if tie = .even ∧ below.digits % 2 = 0 then some below
    else some above

/-- The first hit among the grids with `tried`, `tried + 1`, … digits; seventeen digits always hit.
-/
def Interval.search (i : Interval) (tie : Tie) (magnitude : Int) : Nat → Nat → Decimal
  | 0, tried => (i.onGrid tie (magnitude - tried)).getD ⟨0, 0⟩
  | left + 1, tried =>
    match i.onGrid tie (magnitude - tried) with
    | some d => d
    | none => i.search tie magnitude left (tried + 1)

/-- The shortest decimal that rounds to `m · 2 ^ q`, for `m` above zero. -/
def shortest (tie : Tie) (m : Nat) (q : Int) : Decimal :=
  let i := Interval.around m q
  i.search tie i.magnitude 17 1

end SqlFragments.Number
