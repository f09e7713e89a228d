import SqlFragments.Toml.Node
import SqlFragments.Toml.Phrase

/-!
# What a TOML document says

`Toml.read` gives the entries of a document's outermost table. It first takes the whole document
apart into lines and only then goes through what they say, from top to bottom; a text that is no
document has the fault that is met first on this way.
-/

namespace SqlFragments.Toml

/-- Why a text is no document, as far as it matters: a key has too many parts, or else. -/
inductive Fault where
  | malformed
  | keyTooLong
  deriving DecidableEq, Repr

/-- What is there, or the fault that it is missing. -/
def orMalformed {α : Type} : Option α → Except Fault α
  | some a => .ok a
  | none => .error .malformed

/-- The characters of keys without quotes. -/
def isBareKeyChar (c : Char) : Bool := c.isAlphanum || c == '-' || c == '_'

/-- The name that a part of a key stands for. It is written on one line. -/
def KeyPart.name? : KeyPart → Option String
  | quoted q => if q.isBlock then none else q.text?
  | bare run => if !run.isEmpty && run.all isBareKeyChar then some (String.ofList run) else none

/-- The path to a key and its last name. -/
def keyNames (parts : List KeyPart) : Except Fault (List String × String) := do
  let names ← orMalformed (parts.mapM KeyPart.name?)
  if depthLimit < names.length then .error .keyTooLong
  else return (names.dropLast, names.getLastD "")

/-- The value that a run of characters stands for. -/
def Bare.node : Bare → Node
  | .moment => .moment
  | .truth => .truth
  | .number fits => .number fits

mutual

/-- The value that a phrase stands for. -/
def Phrase.node : Phrase → Except Fault Node
  | .quoted q => (orMalformed q.text?).map .text
  | .bare run => (orMalformed (Bare.ofRun? run)).map Bare.node
  | .list items => return .list false (← itemNodes items)
  | .table pairs => return .table .inline (← pairEntries pairs [])

/-- The values of a list's items. -/
def itemNodes : List Phrase → Except Fault (List Node)
  | [] => .ok []
  | item :: rest => return (← item.node) :: (← itemNodes rest)

/-- The entries of a table that is written in one place, after those that were read. -/
def pairEntries : List (List KeyPart × Phrase) → Entries → Except Fault Entries
  | [], entries => .ok entries
  | (key, item) :: rest, entries => do
    let (path, last) ← keyNames key
    let node ← item.node
    let entries ← orMalformed (entries.assign path last node)
    pairEntries rest entries

end

/-- The table that the next key belongs to: one of the document's, or one for a list of tables,
which takes its place there when it is complete. -/
inductive Section where
  | table (path : List String)
  | item (path : List String) (key : String) (entries : Entries)

/-- A document as far as it was read. -/
structure Progress where
  entries : Entries := []
  current : Section := .table []

namespace Progress

/-- The entries with the current table in its place. -/
def settled (p : Progress) : Except Fault Entries :=
  match p.current with
  | .table _ => .ok p.entries
  | .item path key table => orMalformed (p.entries.append path key table)

/-- Adds what one line says. -/
def add (p : Progress) : Line → Except Fault Progress
  | .header many key => do
    let entries ← p.settled
    let (path, last) ← keyNames key
    if many then return ⟨entries, .item path last []⟩
    else
      let entries ← orMalformed (entries.open path last)
      return ⟨entries, .table (path ++ [last])⟩
  | .pair key item => do
    let (path, last) ← keyNames key
    let node ← item.node
    match p.current with
    | .table current =>
      let entries ← orMalformed (p.entries.within (·.assign path last node) current)
      return { p with entries }
    | .item place name table =>
      let table ← orMalformed (table.assign path last node)
      return { p with current := .item place name table }

end Progress

/-- Reads a document. -/
def read (s : String) : Except Fault Entries := do
  let lines ← orMalformed (documentLines s)
  let p ← lines.foldlM Progress.add {}
  p.settled

end SqlFragments.Toml
