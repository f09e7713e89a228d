import SqlFragments.Dialect
import SqlFragments.Text.Blank

/-!
# Names

A name is a row of segments with points between them and perhaps an alias after ` as `, in any
letter case. Written in a dialect each segment is quoted on its own, but for a bare `*`, and the
alias as a whole.
-/

namespace SqlFragments

/-- A column or table name taken apart. -/
structure Name where
  segments : List (List Char)
  alias? : Option (List Char) := none
  deriving DecidableEq, Repr

namespace Name

/-- What follows ` as ` where the text starts with it. -/
def aliasMark : List Char → Option (List Char)
  | ' ' :: a :: s :: ' ' :: rest => if a.toLower = 'a' ∧ s.toLower = 's' then some rest else none
  | _ => none

/-- Takes a name apart: at the first ` as `, and before it at every point. White space around the
parts of a name with an alias does not count. -/
def ofChars (cs : List Char) : Name :=
  match Text.breakWhere aliasMark cs with
  | some (before, rest) => ⟨Text.splitOn '.' (Text.trimChars before), some (Text.trimChars rest)⟩
  | none => ⟨Text.splitOn '.' cs, none⟩

/-- A segment, quoted unless it stands for all columns. -/
def segmentChars (d : Dialect) (segment : List Char) : List Char :=
  if segment = ['*'] then ['*'] else d.quoteChars segment

/-- The segments with points between them. -/
def segmentsChars (d : Dialect) : List (List Char) → List Char
  | [] => []
  | [segment] => segmentChars d segment
  | segment :: next :: rest => segmentChars d segment ++ '.' :: segmentsChars d (next :: rest)

/-- The name as a dialect writes it. -/
def chars (d : Dialect) (n : Name) : List Char :=
  segmentsChars d n.segments ++
    match n.alias? with
    | some a => ' ' :: 'a' :: 's' :: ' ' :: d.quoteChars a
    | none => []

end Name

/-- The name in a text as a dialect writes it. -/
def Dialect.wrap (d : Dialect) (name : String) : String :=
  String.ofList ((Name.ofChars name.toList).chars d)

/-- What a statement calls a table that is given by a name: its alias, if it has one. -/
def Dialect.wrapTarget (d : Dialect) (name : String) : String :=
  match (Name.ofChars name.toList).alias? with
  | some a => String.ofList (d.quoteChars a)
  | none => d.wrap name

end SqlFragments
