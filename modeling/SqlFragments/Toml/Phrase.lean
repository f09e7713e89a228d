import SqlFragments.Toml.Token

/-!
# How a TOML document is written

A document is a sequence of lines: headers of tables, and pairs of a key and a value.
`documentLines` takes a text apart into its lines and leaves the names, texts, numbers and dates in
them as they are written, so it fails only where the parts do not stand as they should. A name or a
value that is missing is one of no characters. A reader takes the tokens that are left and gives
what it read and the tokens after it, or fails; `value` counts down the tokens of the whole
document, of which every step into a value takes one.
-/

namespace SqlFragments.Toml

/-- One part of a key. -/
inductive KeyPart where
  | quoted (q : Quotation)
  | bare (run : List Char)
  deriving DecidableEq, Repr

/-- A value as it is written. -/
inductive Phrase where
  | quoted (q : Quotation)
  | bare (run : List Char)
  | list (items : List Phrase)
  | table (pairs : List (List KeyPart × Phrase))

/-- A line that says something. -/
inductive Line where
  | header (many : Bool) (key : List KeyPart)
  | pair (key : List KeyPart) (value : Phrase)

/-- A part of a key that is missing. -/
def KeyPart.missing : KeyPart := .bare []

/-- A value that is missing. -/
def Phrase.missing : Phrase := .bare []

/-- How deep lists and tables may lie in each other. A path to a key is shorter than this. -/
def depthLimit : Nat := 80

/-- Reads something from the tokens that are left, or fails. -/
abbrev Reader := StateT (List Token) Option

namespace Reader

/-- The next token, which stays. -/
def peek : Reader (Option Token) := fun tokens => some (tokens.head?, tokens)

/-- Reads this token if it comes next. -/
def taken (token : Token) : Reader Bool
  | t :: rest => if t = token then some (true, rest) else some (false, t :: rest)
  | [] => some (false, [])

/-- Skips the next token. -/
def drop : Reader Unit := fun tokens => some ((), tokens.drop 1)

/-- Skips tokens of a kind. -/
def skip (p : Token → Bool) : Reader Unit := fun tokens => some ((), tokens.dropWhile p)

end Reader

/-- Skips the space within a line. -/
def spaces : Reader Unit := Reader.skip fun t => t matches .space _

/-- Skips everything between the items of a list or table. -/
def gap : Reader Unit := Reader.skip Token.isGap

/-- Skips the rest of a line. -/
def skipLine : Reader Unit := fun tokens =>
  some ((), (tokens.dropWhile fun t => !(t matches .lineEnd _)).drop 1)

/-- Reads the end of a line, with a comment before it or without; the end of the document is one. -/
def endOfLine : Reader Unit := fun tokens =>
  match tokens.dropWhile Token.isMargin with
  | [] => some ((), [])
  | .lineEnd _ :: rest => some ((), rest)
  | _ => none

/-- Reads one part of a key, if one comes next. -/
def keyPart? : Reader (Option KeyPart)
  | .quoted q :: rest => some (some (.quoted q), rest)
  | .bare run :: rest => some (some (.bare run), rest)
  | tokens => some (none, tokens)

/-- Reads the parts of a key after the first, each after a point; the steps count down the tokens.
It also says whether the key ends with a part: after the last point one may be missing. -/
def pointedParts : Nat → Reader (List KeyPart × Bool)
  | 0 => pure ([], true)
  | steps + 1 => do
    spaces
    if ← Reader.taken .point then
      spaces
      match ← keyPart? with
      | some part =>
        let (others, ends) ← pointedParts steps
        return (part :: others, ends)
      | none =>
        if (← Reader.peek) = some .point then
          let (others, ends) ← pointedParts steps
          return (.missing :: others, ends)
        else return ([.missing], false)
    else return ([], true)

/-- Reads the parts of a key, and says whether it ends with a part. -/
def keyParts : Reader (List KeyPart × Bool) := do
  let steps := (← get).length
  match ← keyPart? with
  | some part =>
    let (others, ends) ← pointedParts steps
    return (part :: others, ends)
  | none =>
    if (← Reader.peek) = some .point then
      let (others, ends) ← pointedParts steps
      return (.missing :: others, ends)
    else return ([.missing], false)

/-- The characters of a bare value: runs and points next to each other, and space where a run
follows it. -/
def bareChars : List Token → List Char × List Token
  | .point :: rest =>
    let (run, rest) := bareChars rest
    ('.' :: run, rest)
  | .bare cs :: rest =>
    let (run, rest) := bareChars rest
    (cs ++ run, rest)
  | .space cs :: .bare ds :: rest =>
    let (run, rest) := bareChars rest
    (cs ++ ds ++ run, rest)
  | rest => ([], rest)

/-- Reads a bare value. -/
def bareValue : Reader (List Char) := fun tokens => some (bareChars tokens)

mutual

/-- Reads a value, in which lists and tables may lie so many deep. -/
def value (depth : Nat) : Nat → Reader Phrase
  | 0 => fun _ => none
  | steps + 1 => do
    match ← Reader.peek with
    | some (.quoted q) =>
      Reader.drop
      return .quoted q
    | some .openList =>
      Reader.drop
      match depth with
      | 0 => failure
      | depth + 1 => return .list (← items depth steps)
    | some .openTable =>
      Reader.drop
      match depth with
      | 0 => failure
      | depth + 1 => return .table (← pairs depth steps)
    | _ => return .bare (← bareValue)

/-- Reads the items of a list up to its end. None of them may be missing. -/
def items (depth : Nat) : Nat → Reader (List Phrase)
  | 0 => fun _ => none
  | steps + 1 => do
    gap
    if ← Reader.taken .closeList then return []
    match ← value depth steps with
    | .bare [] => failure
    | item =>
      gap
      if ← Reader.taken .comma then
        let others ← items depth steps
        return item :: others
      else if ← Reader.taken .closeList then return [item]
      else failure

/-- Reads the pairs of a table that is written in one place. The sign between a key and its value
may stand on a line of its own. In the last pair the value may be missing, also with the sign. -/
def pairs (depth : Nat) : Nat → Reader (List (List KeyPart × Phrase))
  | 0 => fun _ => none
  | steps + 1 => do
    gap
    if ← Reader.taken .closeTable then return []
    let (key, _) ← keyParts
    gap
    if ← Reader.taken .closeTable then return [(key, .missing)]
    else if ← Reader.taken .equals then
      gap
      if ← Reader.taken .closeTable then return [(key, .missing)]
      match ← value depth steps with
      | .bare [] => failure
      | item =>
        gap
        if ← Reader.taken .comma then
          let others ← pairs depth steps
          return (key, item) :: others
        else if ← Reader.taken .closeTable then return [(key, item)]
        else failure
    else failure

end

/-- Reads a header after its first bracket. One whose key does not end with a part is not looked at
further, if no bracket follows. -/
def header : Reader Line := do
  let many ← Reader.taken .openList
  spaces
  let (key, ends) ← keyParts
  spaces
  if ← Reader.taken .closeList then
    if !many then endOfLine
    else if ← Reader.taken .closeList then endOfLine
    else failure
  else if ends then failure
  else skipLine
  return .header many key

/-- Reads a pair of a key and a value, which ends a line. -/
def pair : Reader Line := do
  let (key, _) ← keyParts
  if ← Reader.taken .equals then
    spaces
    let item ← value depthLimit ((← get).length + 1)
    endOfLine
    return .pair key item
  else failure

/-- Reads the lines that are left; the steps count down the tokens. -/
def linesFrom : Nat → List Token → Option (List Line)
  | _, [] => some []
  | 0, _ => none
  | steps + 1, token :: rest =>
    if token.isGap then linesFrom steps rest
    else do
      let (said, rest) ← if token = .openList then header rest else pair (token :: rest)
      let others ← linesFrom steps rest
      return said :: others

/-- The lines of a document. A mark of the byte order at its start does not count. -/
def documentLines (s : String) : Option (List Line) :=
  let tokens := Token.scan (match s.toList with
    | '\ufeff' :: rest => rest
    | cs => cs)
  if tokens.all Token.isSound then linesFrom tokens.length tokens else none

end SqlFragments.Toml
