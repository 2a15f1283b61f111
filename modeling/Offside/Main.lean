import Offside.Command.Run

/-!
# The program

Looks at the paths that the command may ask about, runs it, and prints what it reports.
-/

namespace Offside

def isFile (path : String) : IO Bool := do
  let entry : IO.FS.DirEntry := ⟨".", path⟩
  return (← entry.path.metadata).type matches .file

/-- What the file system has at a path. A directory opens but cannot be read, so its error does not
name the path. -/
def entryAt (path : String) : IO Entry := do
  try
    let bytes ← IO.FS.readBinFile path
    return if ← isFile path then .file bytes else .device bytes
  catch
    | .inappropriateType none .. => return .directory
    | .inappropriateType (some _) .. => return .blocked
    | .invalidArgument (some _) .. => return .tooLong
    | _ => return .missing

end Offside

open Offside in
def main (args : List String) : IO UInt32 := do
  let entries ← (Command.paths args).mapM fun path => return (path, ← entryAt path)
  let report := Command.run (fun path => (entries.lookup path).getD .missing) args
  IO.print report.output
  IO.eprint report.errors
  return report.exit
