import SqlFragments.Text.Pieces

/-!
# What stands at a path

The program sees its files through paths. `Directory.read` follows a path through a directory that
holds some files and nothing else, one name at a time: a file leads nowhere further, not even by the
empty name that a slash at the end leaves. Of what lies outside only the directories on the way up
are known.
-/

namespace SqlFragments.Cli

/-- What stands at a path. -/
inductive FileState where
  | missing
  | unreadable
  | text (s : String)
  deriving DecidableEq, Repr

/-- The files of a directory, by their paths from it, with what they hold. -/
structure Directory where
  files : List (String × String)

/-- Where a path has led so far: to a directory above, to one below, or to a file. -/
inductive Place where
  | outside
  | inside (names : List String)
  | file (s : String)
  deriving DecidableEq, Repr

namespace Directory

/-- The path of some names. -/
def joined (names : List String) : String := Text.separated "/" names

/-- Whether a directory of this path lies in the directory. -/
def hasBelow (d : Directory) (path : String) : Bool :=
  d.files.any fun (file, _) => (path ++ "/").toList.isPrefixOf file.toList

/-- Follows one more name. -/
def step (d : Directory) : Place → String → Option Place
  | .file _, _ => none
  | place, "" => some place
  | place, "." => some place
  | .outside, name => if name = ".." then some .outside else none
  | .inside [], ".." => some .outside
  | .inside names, ".." => some (.inside names.dropLast)
  | .inside names, name =>
    let path := joined (names ++ [name])
    match d.files.lookup path with
    | some s => some (.file s)
    | none => if d.hasBelow path then some (.inside (names ++ [name])) else none

/-- How many bytes a path may have. -/
def pathLimit : Nat := 4095

/-- What stands at a path. A directory cannot be read. -/
def read (d : Directory) (path : String) : FileState :=
  let start := if path.startsWith "/" then Place.outside else .inside []
  if path.isEmpty ∨ pathLimit < path.utf8ByteSize then .missing
  else
    match ((Text.splitOn '/' path.toList).map String.ofList).foldlM d.step start with
    | none => .missing
    | some (.file s) => .text s
    | some _ => .unreadable

end Directory

end SqlFragments.Cli
