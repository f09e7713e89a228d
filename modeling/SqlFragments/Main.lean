import SqlFragments.Cli.Program

/-!
# The program

Reads the configuration file and the environment that `Cli.run` asks for, and prints what it
answers.
-/

open SqlFragments

/-- The system's code for a directory where a file is wanted. -/
def directoryCode : UInt32 := 21

/-- What stands at the path, as far as the program can tell. A path that goes through a file or is
too long leads nowhere. -/
def readState (path : String) : IO Cli.FileState := do
  match ← (IO.FS.readFile path).toBaseIO with
  | .ok s => return .text s
  | .error (.noFileOrDirectory ..) | .error (.invalidArgument ..) => return .missing
  | .error (.inappropriateType _ code _) =>
    return if code = directoryCode then .unreadable else .missing
  | .error _ => return .unreadable

/-- Runs the program with the environment variables that are known. A variable that the
configuration turns out to need is asked for, and the program starts over. -/
partial def settle (state : String → Cli.FileState) (arguments : List String)
    (known : List (String × String)) : IO Cli.Result := do
  let result := Cli.run ⟨state, (known.lookup ·)⟩ arguments
  match result.ending with
  | .failure (.badConfig _ (.expansion (.undefined name))) =>
    match ← IO.getEnv name with
    | some v => settle state arguments ((name, v) :: known)
    | none => return result
  | _ => return result

/-- Runs the program and gives its exit code. -/
def main (arguments : List String) : IO UInt32 := do
  let path := match Cli.Command.parse arguments with
    | .ok (.doctor o) => o.config
    | _ => ""
  let state ← readState path
  let url ← IO.getEnv "DATABASE_URL"
  let known := url.toList.map fun v => ("DATABASE_URL", v)
  let result ← settle (fun p => if p = path then state else .missing) arguments known
  IO.print result.output
  match result.ending with
  | .success => return 0
  | .failure f =>
    IO.eprintln f.message
    return 1
  | .connects _ =>
    IO.eprintln "connecting to a database is not supported"
    return 1
