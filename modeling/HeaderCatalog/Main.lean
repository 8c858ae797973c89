import HeaderCatalog.Readers

/-!
# HeaderCatalog.Main — the program

Reads the files that a command needs, and prints its answer.
-/

namespace HeaderCatalog

/-- The paths that a command reads. -/
def Invocation.paths : Invocation → List Path
  | command _ (.scan p _) => [(Path.ofText []).child settingsFileName, p]
  | command _ (.kinds p) => [p]
  | _ => []

/-- What the file system has at a path. -/
def readPath (p : Path) : IO (Except FileError Bytes) := do
  try
    return .ok (← IO.FS.readBinFile (String.ofList p.render)).toList
  catch e =>
    match e with
    | .noFileOrDirectory .. => return .error .missing
    | .inappropriateType _ code _ => return .error (if code == 20 then .underFile else .directory)
    | _ => throw e

end HeaderCatalog

open HeaderCatalog in
/-- Carry out the command that the arguments name. -/
def main (args : List String) : IO UInt32 := do
  let invocation := Invocation.ofArguments args
  let found ← invocation.paths.mapM fun p => do return (p, ← readPath p)
  let answer := invocation.run ownReaders fun p => (found.lookup p).getD (.error .missing)
  IO.print answer.output
  IO.eprint answer.errors
  return answer.exit.toUInt32
