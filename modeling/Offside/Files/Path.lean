/-!
# Paths

A path is a row of names with slashes between them. Followed from a directory, `.` stays there and
`..` goes back, also out of the directory that the path starts from. `Path.place` is where a path
leads as long as all directories on its way are there.
-/

namespace Offside

namespace Path

/-- The names of a path. A slash at the end stands for a place inside a directory. -/
def names (path : String) : List String :=
  let parts := (path.toList.splitOn '/').map String.ofList
  let inside := if parts.getLast? = some "" then ["."] else []
  parts.filter (· != "") ++ inside

def plainNames (path : String) : List String := (names path).filter (· != ".")

/-- The path from a directory. One that starts with a slash starts from the root anyway. -/
def join (directory path : String) : String :=
  if path.startsWith "/" then path
  else if directory.isEmpty || directory.endsWith "/" then directory ++ path
  else directory ++ "/" ++ path

/-- Names from the directory in which paths start. A place outside of it begins with `..` for each
step out, or with `/` for the root. -/
abbrev Place := List String

def root : Place := ["/"]

def start (path : String) : Place := if path.startsWith "/" then root else []

/-- The place that a name leads to. Nothing is above the root. -/
def step (here : Place) (name : String) : Place :=
  if name = "." then here
  else if name = ".." then
    if here = root then root
    else if here.all (· == "..") then here ++ [".."]
    else here.dropLast
  else here ++ [name]

def way (here : Place) : List String → List Place
  | [] => [here]
  | name :: r => here :: way (step here name) r

def place (path : String) : Place := (names path).foldl step (start path)

end Path

end Offside
