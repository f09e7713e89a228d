import SqlFragments.Toml.Quoted

/-!
# Tokens of TOML

`Token.scan` cuts a text into the signs between names and values, quoted texts, runs of other
characters, space, comments and line ends. Every text has tokens; a comment or a line end that is
not well formed is marked as such.
-/

namespace SqlFragments.Toml

/-- A piece of a document. The signs are the point, the equals sign, the comma and the two pairs of
brackets, of which the square ones enclose lists and headers. -/
inductive Token where
  | point
  | equals
  | comma
  | openList
  | closeList
  | openTable
  | closeTable
  | space (run : List Char)
  | lineEnd (sound : Bool)
  | comment (sound : Bool)
  | quoted (q : Quotation)
  | bare (run : List Char)
  deriving DecidableEq, Repr

namespace Token

/-- The characters of bare runs, in which quotes may stand but not start one. -/
def isBareChar (c : Char) : Bool := !" \t\r\n.#=,[]\x7b\x7d".toList.contains c

/-- The first token of the characters that are left, and what follows it. -/
def next : List Char → Option (Token × List Char)
  | [] => none
  | c :: rest =>
    if c = '.' then some (point, rest)
    else if c = '=' then some (equals, rest)
    else if c = ',' then some (comma, rest)
    else if c = '[' then some (openList, rest)
    else if c = ']' then some (closeList, rest)
    else if c = '\x7b' then some (openTable, rest)
    else if c = '\x7d' then some (closeTable, rest)
    else if c = '\n' then some (lineEnd true, rest)
    else if c = '\r' then
      if rest.head? = some '\n' then some (lineEnd true, rest.drop 1)
      else some (lineEnd false, rest)
    else if c = '#' then
      let run := rest.takeWhile fun c => c != '\n' && c != '\r'
      some (comment (!run.any isControl), rest.drop run.length)
    else if c = '"' ∨ c = '\'' then
      let (q, rest) := Quotation.take c rest
      some (quoted q, rest)
    else if isSpace c then
      let run := rest.takeWhile isSpace
      some (space (c :: run), rest.drop run.length)
    else
      let run := rest.takeWhile isBareChar
      some (bare (c :: run), rest.drop run.length)

/-- The tokens of the characters that are left; the steps count down the characters. -/
def scanFrom : Nat → List Char → List Token
  | 0, _ => []
  | steps + 1, cs =>
    match next cs with
    | none => []
    | some (token, rest) => token :: scanFrom steps rest

/-- The tokens of a text. -/
def scan (cs : List Char) : List Token := scanFrom cs.length cs

/-- Whether the token is no comment or line end that is not well formed. -/
def isSound : Token → Bool
  | lineEnd sound | comment sound => sound
  | _ => true

/-- Space, comments and line ends. -/
def isGap : Token → Bool
  | space _ | lineEnd _ | comment _ => true
  | _ => false

/-- Space and comments. -/
def isMargin : Token → Bool
  | space _ | comment _ => true
  | _ => false

end Token

end SqlFragments.Toml
