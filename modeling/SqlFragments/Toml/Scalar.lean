/-!
# Bare values of TOML

Numbers, truth values, dates and times are written without quotes, and a run of characters is one of
them or nothing. What a run stands for does not matter here, except that a number may not fit: a
whole one that is too large for 128 bits or has no proper digits, another that is too large for
double precision. Such a number may stand in a document as long as nobody asks for it.
-/

namespace SqlFragments.Toml

/-- Digits of a class with single underscores between them. -/
def isDigitRun (isDigit : Char → Bool) : List Char → Bool
  | [] => false
  | [c] => isDigit c
  | c :: '_' :: rest => isDigit c && isDigitRun isDigit rest
  | c :: rest => isDigit c && isDigitRun isDigit rest

/-- Digits in base sixteen. -/
def isHexDigit (c : Char) : Bool :=
  c.isDigit || ('a' ≤ c && c ≤ 'f') || ('A' ≤ c && c ≤ 'F')

/-- The number that a digit of any base up to sixteen stands for. -/
def digitValue (c : Char) : Nat :=
  if c.isDigit then c.toNat - '0'.toNat else c.toLower.toNat - 'a'.toNat + 10

/-- The number that digits stand for; underscores do not count. -/
def digitsIn (base : Nat) (cs : List Char) : Nat :=
  (cs.filter (· != '_')).foldl (fun n c => n * base + digitValue c) 0

/-- The characters without a sign in front. -/
def unsigned : List Char → List Char
  | '+' :: rest => rest
  | '-' :: rest => rest
  | cs => cs

/-- Whether underscores only part digits of a class from each other; `after` says whether the
characters come after a digit. -/
def partsDigits (isDigit : Char → Bool) : Bool → List Char → Bool
  | _, [] => true
  | after, '_' :: c :: rest => after && isDigit c && partsDigits isDigit true rest
  | _, ['_'] => false
  | _, c :: rest => partsDigits isDigit (isDigit c) rest

/-- The base of a number, and what follows the mark of the base. Without a mark the base is ten. -/
def baseOf : List Char → Nat × List Char
  | '0' :: 'x' :: rest => (16, rest)
  | '0' :: 'o' :: rest => (8, rest)
  | '0' :: 'b' :: rest => (2, rest)
  | cs => (10, cs)

/-- The digits of a base up to sixteen. -/
def isDigitIn (base : Nat) (c : Char) : Bool := isHexDigit c && digitValue c < base

/-- Whether a character makes a number one with a fraction or an exponent. -/
def isFloatMark (c : Char) : Bool := c == '.' || c == 'e' || c == 'E'

/-- A run that stands for a whole number. After the mark of a base there are digits of it or
nothing. In base ten there are decimal digits, and after an underscore and a digit in base sixteen
any character; a zero in front stands alone. -/
def isWhole (cs : List Char) : Bool :=
  match baseOf cs with
  | (10, _) =>
    let magnitude := unsigned cs
    let more := magnitude.dropWhile Char.isDigit
    magnitude == ['0'] ||
      !magnitude.isEmpty && magnitude.head? != some '0' &&
        (more.isEmpty || more.head? == some '_') &&
        !more.any (fun c => isFloatMark c || c == ' ') && partsDigits isHexDigit false cs
  | (base, digits) => digits.isEmpty || isDigitRun (isDigitIn base) digits

/-- Whether a run that stands for a whole number holds digits of its base alone and fits in 128
bits, with a sign or without. -/
def wholeFits (cs : List Char) : Bool :=
  let (base, digits) := baseOf cs
  let plain := (unsigned digits).filter (· != '_')
  !plain.isEmpty && plain.all (isDigitIn base) &&
    if cs.head? = some '-' then digitsIn base plain ≤ Nat.pow 2 127
    else digitsIn base plain < Nat.pow 2 128

/-- A number with a fraction or an exponent, in parts. -/
structure Decimals where
  whole : List Char
  fraction : Option (List Char)
  exponent : Option (List Char)
  rest : List Char

/-- The parts of a run without its sign. -/
def Decimals.ofChars (cs : List Char) : Decimals :=
  let isPart (c : Char) : Bool := c.isDigit || c == '_'
  let whole := cs.takeWhile isPart
  let (fraction, rest) := match cs.drop whole.length with
    | '.' :: rest => (some (rest.takeWhile isPart), rest.dropWhile isPart)
    | rest => (none, rest)
  match rest with
  | c :: rest =>
    if c == 'e' || c == 'E' then
      let digits := (unsigned rest).takeWhile isPart
      let sign := rest.take (rest.length - (unsigned rest).length)
      ⟨whole, fraction, some (sign ++ digits), (unsigned rest).drop digits.length⟩
    else ⟨whole, fraction, none, c :: rest⟩
  | [] => ⟨whole, fraction, none, []⟩

/-- Whether a run has the parts of a number with a fraction or an exponent. A zero in front is the
only digit before the point. -/
def Decimals.complete (d : Decimals) : Bool :=
  d.rest.isEmpty && d.whole.any Char.isDigit &&
    (d.whole.head? != some '0' || (d.whole.filter Char.isDigit).length == 1) &&
    (d.fraction.isSome || d.exponent.isSome) &&
    d.fraction.all (·.any Char.isDigit) && d.exponent.all (·.any Char.isDigit)

/-- The texts of what is no finite number. -/
def isUnboundedName (cs : List Char) : Bool :=
  unsigned cs == "inf".toList || unsigned cs == "nan".toList

/-- A run that stands for a number with a fraction or an exponent, or for one that is not finite. -/
def isFloat (cs : List Char) : Bool :=
  isUnboundedName cs ||
    (Decimals.ofChars (unsigned cs)).complete && partsDigits Char.isDigit false cs

/-- The exponent of a number. -/
def Decimals.power (d : Decimals) : Int :=
  match d.exponent.getD [] with
  | '-' :: digits => -(digitsIn 10 digits : Nat)
  | digits => digitsIn 10 (unsigned digits)

/-- Whether a number rounds to a finite one in double precision. Only where it has 309 digits before
the point does it take more than their number to tell. -/
def Decimals.isFinite (d : Decimals) : Bool :=
  let fraction := d.fraction.getD []
  let digits := digitsIn 10 (d.whole ++ fraction)
  let scale := d.power - (fraction.filter (· != '_')).length
  let size := scale + (toString digits).length
  if digits = 0 || size < 309 then true
  else if 309 < size then false
  else
    digits * Nat.pow 10 scale.toNat <
      (Nat.pow 2 1024 - Nat.pow 2 970) * Nat.pow 10 (-scale).toNat

/-- Whether a run that stands for a number with a fraction or an exponent can be held. -/
def floatFits (cs : List Char) : Bool :=
  isUnboundedName cs || (Decimals.ofChars (unsigned cs)).isFinite

/-- The number that some digits stand for, if they are exactly so many digits. -/
def fixedDigits? (width : Nat) (cs : List Char) : Option Nat :=
  if cs.length = width ∧ cs.all Char.isDigit then
    some (cs.foldl (fun n c => n * 10 + (c.toNat - '0'.toNat)) 0)
  else none

/-- The days of a month. -/
def daysOfMonth (year month : Nat) : Nat :=
  if month = 2 then
    if year % 4 = 0 ∧ (year % 100 ≠ 0 ∨ year % 400 = 0) then 29 else 28
  else if month = 4 ∨ month = 6 ∨ month = 9 ∨ month = 11 then 30 else 31

/-- `YYYY-MM-DD`. -/
def isDate (cs : List Char) : Bool :=
  match fixedDigits? 4 (cs.take 4), (cs.drop 4).take 1, fixedDigits? 2 ((cs.drop 5).take 2),
    (cs.drop 7).take 1, fixedDigits? 2 (cs.drop 8) with
  | some year, ['-'], some month, ['-'], some day =>
    1 ≤ month && month ≤ 12 && 1 ≤ day && day ≤ daysOfMonth year month
  | _, _, _, _, _ => false

/-- `HH:MM`. -/
def isHourMinute (cs : List Char) : Bool :=
  match fixedDigits? 2 (cs.take 2), (cs.drop 2).take 1, fixedDigits? 2 (cs.drop 3) with
  | some hour, [':'], some minute => hour < 24 && minute < 60
  | _, _, _ => false

/-- What may follow `HH:MM`: nothing, or seconds and perhaps a fraction. -/
def isSeconds : List Char → Bool
  | [] => true
  | ':' :: rest =>
    match fixedDigits? 2 (rest.take 2) with
    | some second =>
      second ≤ 60 &&
        match rest.drop 2 with
        | [] => true
        | '.' :: fraction => !fraction.isEmpty && fraction.all Char.isDigit
        | _ => false
    | none => false
  | _ => false

/-- A time of day. -/
def isTime (cs : List Char) : Bool :=
  isHourMinute (cs.take 5) && isSeconds (cs.drop 5)

/-- A time of day, perhaps with a zone. -/
def isZonedTime (cs : List Char) : Bool :=
  let isZone (c : Char) : Bool := c == 'Z' || c == 'z' || c == '+' || c == '-'
  let time := cs.takeWhile fun c => !isZone c
  isTime time &&
    match cs.drop time.length with
    | [] => true
    | ['Z'] | ['z'] => true
    | _ :: zone => isHourMinute zone

/-- A date, a time, or both. -/
def isDateTime (cs : List Char) : Bool :=
  isTime cs || isDate cs ||
    (isDate (cs.take 10) &&
      match cs.drop 10 with
      | c :: rest => (c == 'T' || c == 't' || c == ' ') && isZonedTime rest
      | [] => false)

/-- What a run of characters stands for, if anything. -/
inductive Bare where
  | moment
  | truth
  | number (fits : Bool)
  deriving DecidableEq, Repr

/-- What the run stands for. -/
def Bare.ofRun? (cs : List Char) : Option Bare :=
  if isDateTime cs then some .moment
  else if cs = "true".toList ∨ cs = "false".toList then some .truth
  else if isWhole cs then some (.number (wholeFits cs))
  else if isFloat cs then some (.number (floatFits cs))
  else none

end SqlFragments.Toml
