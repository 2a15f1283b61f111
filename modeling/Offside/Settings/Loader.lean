import Offside.Files.FileSet
import Offside.Settings.Read
import Offside.Text.Space
import Offside.Toml.Reader

/-!
# Layers of settings

Settings come from the defaults, from files in the order they were added, and from overrides. Each
file is merged over what came before, and overrides win over files whatever the order of the calls.
A loader only collects; `build` reads the files.
-/

namespace Offside

inductive LoadError where
  /-- An assignment without an equals sign. -/
  | notAssignment (text : String)
  /-- An assignment to nothing. -/
  | missingKey (text : String)
  | badPath (fault : KeyPath.Fault)
  | notFound (path : String)
  /-- A file that is not UTF-8. -/
  | notText
  /-- A file that is not well formed. -/
  | malformed (file : String)
  /-- A file that is no table. -/
  | notTable (found file : String)
  /-- A path to a place that no list has. -/
  | noPlace
  | setting (error : SettingError)
deriving DecidableEq, Repr

def LoadError.message : LoadError → String
  | notAssignment text => s!"expected KEY=VALUE, got '{text}'"
  | missingKey text => s!"missing key in '{text}'"
  | badPath fault => fault.message
  | notFound path => s!"configuration file \"{path}\" not found"
  | notText => "stream did not contain valid UTF-8"
  | malformed file => s!"malformed TOML in {file}"
  | notTable found file => s!"invalid type: {found}, expected a map in {file} in {file}"
  | noPlace => "list place out of range"
  | setting error => error.message

/-- A file to layer. One that is not required is left out if it cannot be read. -/
structure SettingsFile where
  path : String
  required : Bool
deriving DecidableEq, Repr

structure Loader where
  files : List SettingsFile := []
  overrides : List (KeyPath × Value) := []

namespace Loader

def localName : String := "viewtree.toml"

def defaults : Value :=
  let flag (b : Bool) : Value := .ofScalar (.bool b)
  let text (s : String) : Value := .ofScalar (.text s)
  .table none
    [("scanner", .table none
      [("same_level", flag false), ("ignore_spaces", flag true), ("crlf", flag true),
        ("max_depth", .ofScalar (.int Stack.defaultCapacity)),
        ("final_line_break", text FinalBreak.always.name)]),
     ("output", .table none [("format", text Format.simple.name), ("skip_trivia", flag false)])]

def withFile (path : String) (required : Bool) (l : Loader) : Loader :=
  { l with files := l.files ++ [⟨path, required⟩] }

def withLocalFile (directory : String) (l : Loader) : Loader :=
  l.withFile (Path.join directory localName) false

/-- Overrides are scalars. A whole table or list is given by a file. -/
def withOverride (key : String) (s : Scalar) (l : Loader) : Except LoadError Loader :=
  match KeyPath.ofString? key with
  | .ok path => .ok { l with overrides := l.overrides ++ [(path, .ofScalar s)] }
  | .error fault => .error (.badPath fault)

/-- An override written as `key=value`, where blanks around both do not count. -/
def withAssignment (text : String) (l : Loader) : Except LoadError Loader :=
  match text.toList.dropWhile (· != '=') with
  | [] => .error (.notAssignment text)
  | _ :: value =>
    let key := trim (text.toList.takeWhile (· != '='))
    if key.isEmpty then .error (.missingKey text)
    else l.withOverride (String.ofList key) (.text (String.ofList (trim value)))

def withFormat (format : Format) (l : Loader) : Except LoadError Loader :=
  l.withOverride "output.format" (.text format.name)

/-! ## Reading files -/

def shown (path : String) : String :=
  (if path.startsWith "/" then "/" else "") ++ "/".intercalate (Path.plainNames path)

/-- Where a file is looked for: at its path, and with `.toml` behind the last name. -/
def candidates (path : String) : List String :=
  match (Path.plainNames path).getLast? with
  | none => [path]
  | some last => if last == ".." then [path] else [path, shown path ++ ".toml"]

def find? (path : String) (files : Files) : Option (String × ByteArray) :=
  (candidates path).findSome? fun path =>
    match files path with
    | .file bytes => some (shown path, bytes)
    | _ => none

def entries (files : Files) (f : SettingsFile) : Except LoadError (List (String × Value)) :=
  match find? f.path files with
  | none => if f.required then .error (.notFound f.path) else .ok []
  | some (name, bytes) =>
    match String.fromUTF8? bytes with
    | none => if f.required then .error .notText else .ok []
    | some text =>
      match (Toml.read? text.toList).bind (Toml.Item.tableValue? (some name)) with
      | none => .error (.malformed name)
      | some (.table _ es) => .ok es
      | some v => .error (.notTable (v.noun .setting) name)

def placed (root : Option Value) : Except LoadError Value :=
  match root with
  | some root => .ok root
  | none => .error .noPlace

def addFile (files : Files) (root : Value) (f : SettingsFile) : Except LoadError Value := do
  placed (Value.layer? (← entries files f) root)

def tree (files : Files) (l : Loader) : Except LoadError Value := do
  let merged ← l.files.foldlM (addFile files) defaults
  l.overrides.foldlM (fun root (path, v) => placed (Value.set? path v root)) merged

def build (files : Files) (l : Loader) : Except LoadError Settings := do
  (Settings.read (← l.tree files)).mapError .setting

end Loader

end Offside
