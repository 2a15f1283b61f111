import Offside.Files.Path

/-!
# Files by path

All that is asked about files is what is at a path. A `FileSet` answers it for files that are put
into an empty directory, with the directories on the way to each. Of what else there is it knows the
directories that the empty one lies in, the usual ones below the root, and two devices that hold
nothing.
-/

namespace Offside

inductive Entry where
  | file (bytes : ByteArray)
  /-- Something that can be read like a file and is none. -/
  | device (bytes : ByteArray)
  | directory
  | missing
  /-- The path goes on behind a file. -/
  | blocked
  /-- The path, or a name in it, is longer than any can be. -/
  | tooLong

abbrev Files := String → Entry

structure FileSet where
  files : List (Path.Place × ByteArray)
  directories : List Path.Place

namespace FileSet

def ofList (files : List (String × ByteArray)) : FileSet where
  files := files.reverse.map fun (path, bytes) => (Path.place path, bytes)
  directories := files.flatMap fun (path, _) =>
    (Path.way (Path.start path) (Path.names path)).dropLast

def rootNames : List String :=
  ["bin", "boot", "dev", "etc", "home", "lib", "media", "mnt", "opt", "proc", "root", "run", "sbin",
    "srv", "sys", "tmp", "usr", "var"]

def emptyDevices : List Path.Place := [["/", "dev", "null"], ["/", "dev", "stdin"]]

def isGiven (here : Path.Place) : Bool :=
  here.all (· == "..") || here == Path.root ||
    rootNames.any fun name => here == Path.root ++ [name]

def entryAt (fs : FileSet) (here : Path.Place) : Entry :=
  match fs.files.lookup here with
  | some bytes => .file bytes
  | none =>
    if isGiven here || fs.directories.contains here then .directory
    else if emptyDevices.contains here then .device .empty
    else .missing

def maxName : Nat := 255

def maxPath : Nat := 4095

def follow (fs : FileSet) (here : Path.Place) : List String → Entry
  | [] => fs.entryAt here
  | name :: r =>
    match fs.entryAt here with
    | .file _ | .device _ => .blocked
    | .directory => if maxName < name.utf8ByteSize then .tooLong else follow fs (Path.step here name) r
    | e => e

def find (fs : FileSet) : Files := fun path =>
  if path.isEmpty then .missing
  else if maxPath < path.utf8ByteSize then .tooLong
  else fs.follow (Path.start path) (Path.names path)

end FileSet

end Offside
