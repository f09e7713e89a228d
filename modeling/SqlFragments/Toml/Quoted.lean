import SqlFragments.Toml.Scalar

/-!
# Quoted texts of TOML

A text stands between double quotes, which allow escapes, or between single ones, on one line or,
between three quotes, on several. `Quotation.take` finds where a text ends without a look at what is
in it; `Quotation.text?` says which text it is, if everything in it is well formed.
-/

namespace SqlFragments.Toml

/-- The space within a line. -/
def isSpace (c : Char) : Bool := c == ' ' || c == '\t'

/-- The characters that stand nowhere but at the end of a line. -/
def isControl (c : Char) : Bool :=
  (c.toNat < 0x20 && c != '\t') || c.toNat == 0x7F

/-- The character with a number in base sixteen of so many digits. -/
def hexChar (width : Nat) (cs : List Char) : Option (Char × List Char) :=
  let digits := cs.take width
  let n := digitsIn 16 digits
  if digits.length = width ∧ digits.all isHexDigit ∧ n.isValidChar then
    some (Char.ofNat n, cs.drop width)
  else none

/-- The character that follows a backslash. -/
def escape : List Char → Option (Char × List Char)
  | 'b' :: rest => some (Char.ofNat 8, rest)
  | 't' :: rest => some ('\t', rest)
  | 'n' :: rest => some ('\n', rest)
  | 'f' :: rest => some (Char.ofNat 12, rest)
  | 'r' :: rest => some ('\r', rest)
  | 'e' :: rest => some (Char.ofNat 27, rest)
  | '"' :: rest => some ('"', rest)
  | '\\' :: rest => some ('\\', rest)
  | 'x' :: rest => hexChar 2 rest
  | 'u' :: rest => hexChar 4 rest
  | 'U' :: rest => hexChar 8 rest
  | _ => none

/-- Reads up to a quote. In a basic text a backslash starts an escape. -/
def quotedLine (quote : Char) : Nat → List Char → Option (List Char × List Char)
  | 0, _ => none
  | _ + 1, [] => none
  | steps + 1, c :: rest =>
    if c = quote then some ([], rest)
    else if c = '\\' && quote == '"' then do
      let (e, rest) ← escape rest
      let (text, rest) ← quotedLine quote steps rest
      return (e :: text, rest)
    else if isControl c then none
    else do
      let (text, rest) ← quotedLine quote steps rest
      return (c :: text, rest)

/-- Skips space and line ends. -/
def skipBlank : List Char → List Char
  | ' ' :: rest | '\t' :: rest | '\n' :: rest | '\r' :: '\n' :: rest => skipBlank rest
  | rest => rest

/-- Skips what follows a backslash at the end of a line: the line end and all space after it. -/
def continuation (cs : List Char) : Option (List Char) :=
  match cs.dropWhile isSpace with
  | '\n' :: rest | '\r' :: '\n' :: rest => some (skipBlank rest)
  | _ => none

/-- Reads up to three quotes, of which two more may stand before the end. -/
def quotedBlock (quote : Char) : Nat → List Char → Option (List Char × List Char)
  | 0, _ => none
  | _ + 1, [] => none
  | steps + 1, c :: rest =>
    if c = quote then
      let more := (rest.takeWhile (· == quote)).length
      if 2 ≤ more then
        let kept := min (more - 2) 2
        some (List.replicate kept quote, rest.drop (2 + kept))
      else do
        let (text, rest) ← quotedBlock quote steps rest
        return (c :: text, rest)
    else if c = '\\' && quote == '"' then
      match continuation rest with
      | some rest => quotedBlock quote steps rest
      | none => do
        let (e, rest) ← escape rest
        let (text, rest) ← quotedBlock quote steps rest
        return (e :: text, rest)
    else if c = '\r' && rest.head? != some '\n' then none
    else if isControl c && c != '\n' && c != '\r' then none
    else do
      let (text, rest) ← quotedBlock quote steps rest
      return (c :: text, rest)

/-- Reads a text after its first quote: of one line, or of several after two more quotes. -/
def text (quote : Char) (rest : List Char) : Option (String × List Char) :=
  match rest with
  | a :: b :: more =>
    if a = quote ∧ b = quote then do
      let more := match more with
        | '\n' :: m | '\r' :: '\n' :: m => m
        | m => m
      let (cs, rest) ← quotedBlock quote (more.length + 1) more
      return (String.ofList cs, rest)
    else do
      let (cs, rest) ← quotedLine quote (rest.length + 1) rest
      return (String.ofList cs, rest)
  | _ => do
    let (cs, rest) ← quotedLine quote (rest.length + 1) rest
    return (String.ofList cs, rest)

/-- A text as it is written: the quote that it starts with, and the characters after that up to its
end, with the quotes there. -/
structure Quotation where
  quote : Char
  run : List Char
  deriving DecidableEq, Repr

namespace Quotation

/-- The text that is meant, if it is well formed. -/
def text? (q : Quotation) : Option String :=
  match text q.quote q.run with
  | some (s, []) => some s
  | _ => none

/-- Whether the text starts with three quotes. -/
def isBlock (q : Quotation) : Bool := q.run.take 2 == [q.quote, q.quote]

/-- Whether a backslash and this character hide an end of the text. -/
def hides (quote c d : Char) : Bool := quote == '"' && c == '\\' && (d == '\\' || d == '"')

/-- The characters up to the next quote, or up to the end of the line. -/
def lineRun (quote : Char) : List Char → List Char
  | [] => []
  | [c] => if c = '\n' then [] else [c]
  | c :: d :: rest =>
    if c = quote then [c]
    else if c = '\n' then []
    else if hides quote c d then c :: d :: lineRun quote rest
    else c :: lineRun quote (d :: rest)

/-- The characters up to the next three quotes and two more at most, or up to the end. -/
def blockRun (quote : Char) : List Char → List Char
  | [] => []
  | [c] => [c]
  | c :: d :: rest =>
    let more := ((d :: rest).takeWhile (· == quote)).length
    if c = quote ∧ 2 ≤ more then List.replicate (1 + min more 4) quote
    else if hides quote c d then c :: d :: blockRun quote rest
    else c :: blockRun quote (d :: rest)

/-- The text that starts with a quote, from the characters after it, and what follows the text. -/
def take (quote : Char) (cs : List Char) : Quotation × List Char :=
  let run :=
    if cs.take 2 == [quote, quote] then quote :: quote :: blockRun quote (cs.drop 2)
    else lineRun quote cs
  (⟨quote, run⟩, cs.drop run.length)

end Quotation

end SqlFragments.Toml
