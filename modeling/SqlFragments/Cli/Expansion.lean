/-!
# Environment variables in settings

A setting may refer to environment variables as `${NAME}`. `expand` replaces every reference by the
value of its variable in one pass from the left, so a value that looks like a reference is not
expanded again.
-/

namespace SqlFragments.Cli

/-- The values of the environment's variables. -/
abbrev Environment := String → Option String

/-- The environment of these variables. It is a list of lines `NAME=value`, and a name finds the
first line that starts with it and an equals sign: one that holds such a sign itself takes the end
of its variable's value. -/
def Environment.ofVariables (pairs : List (String × String)) : Environment := fun name =>
  let start := name.toList ++ ['=']
  pairs.findSome? fun (n, v) =>
    let line := n.toList ++ '=' :: v.toList
    if start.isPrefixOf line then some (String.ofList (line.drop start.length)) else none

/-- Why a setting cannot be expanded. -/
inductive ExpansionError where
  | unterminated (name : String)
  | unnamed
  | undefined (name : String)
  deriving DecidableEq, Repr

/-- The error in words. -/
def ExpansionError.message : ExpansionError → String
  | unterminated name => "unterminated env var reference: $\x7b" ++ name ++ "\x7d"
  | unnamed => "invalid env var reference: $\x7b\x7d"
  | undefined name => "missing env var for config expansion: " ++ name

/-- Expands the characters that are left. Inside a reference the name that was read so far is given,
last character first. -/
def expandChars (env : Environment) :
    Option (List Char) → List Char → Except ExpansionError (List Char)
  | none, [] => .ok []
  | none, '$' :: '\x7b' :: rest => expandChars env (some []) rest
  | none, c :: rest => (expandChars env none rest).map (c :: ·)
  | some name, [] => .error (.unterminated (String.ofList name.reverse))
  | some name, c :: rest =>
    if c = '\x7d' then
      if name.isEmpty then .error .unnamed
      else
        match env (String.ofList name.reverse) with
        | none => .error (.undefined (String.ofList name.reverse))
        | some v => (expandChars env none rest).map (v.toList ++ ·)
    else expandChars env (some (c :: name)) rest

/-- The setting with its references replaced. -/
def expand (env : Environment) (s : String) : Except ExpansionError String :=
  (expandChars env none s.toList).map String.ofList

end SqlFragments.Cli
