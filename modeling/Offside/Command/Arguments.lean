import Offside.Settings.Format

/-!
# Command-line arguments

Options with a value take it attached or as the next argument, which may not look like an option.
Help and version act as soon as they are met, behind arguments that are all right. Behind `--` there
are only paths.
-/

namespace Offside

namespace Command

structure Job where
  path : String
  config : Option String := none
  format : Option Format := none
  assignments : List String := []
deriving DecidableEq, Repr

inductive Request where
  | help
  | version
  | listFormats
  | tokenize (job : Job)
  /-- Arguments that make no request. -/
  | misused
deriving DecidableEq, Repr

structure Seen where
  path : Option String := none
  config : Option String := none
  format : Option Format := none
  assignments : List String := []
  listFormats : Bool := false
deriving DecidableEq, Repr

inductive ValueOption where
  | config
  | format
  | set
deriving DecidableEq, Repr

namespace Seen

def addPath? (path : String) (s : Seen) : Option Seen :=
  if s.path.isSome then none else some { s with path := some path }

/-- An option with its value. Only assignments may be repeated. -/
def addOption? (o : ValueOption) (value : String) (s : Seen) : Option Seen :=
  match o with
  | .config => if s.config.isSome then none else some { s with config := some value }
  | .format =>
    if s.format.isSome then none
    else (Format.ofName? value).map fun f => { s with format := some f }
  | .set => some { s with assignments := s.assignments ++ [value] }

def request (s : Seen) : Request :=
  if s.listFormats then .listFormats
  else
    match s.path with
    | some path =>
      .tokenize { path, config := s.config, format := s.format, assignments := s.assignments }
    | none => .misused

end Seen

def longOption? (name : String) : Option ValueOption :=
  if name = "config" then some .config
  else if name = "format" then some .format
  else if name = "set" then some .set
  else none

def shortOption? (c : Char) : Option ValueOption :=
  if c = 'c' then some .config
  else if c = 'f' then some .format
  else if c = 's' then some .set
  else none

inductive Argument where
  | path (text : String)
  /-- `--` -/
  | onlyPaths
  | help
  | version
  | listFormats
  | option (o : ValueOption) (value : Option String)
  | unknown
deriving DecidableEq, Repr

def attached? (text : List Char) : Option String :=
  match text with
  | [] => none
  | '=' :: r => some (String.ofList r)
  | r => some (String.ofList r)

def Argument.ofString (text : String) : Argument :=
  match text.toList with
  | ['-', '-'] => .onlyPaths
  | '-' :: '-' :: r =>
    let name := String.ofList (r.takeWhile (· != '='))
    let value := attached? (r.dropWhile (· != '='))
    match longOption? name with
    | some o => .option o value
    | none =>
      if value.isSome then .unknown
      else if name = "help" then .help
      else if name = "version" then .version
      else if name = "list-formats" then .listFormats
      else .unknown
  | '-' :: c :: r =>
    match shortOption? c with
    | some o => .option o (attached? r)
    | none => if c = 'h' then .help else if c = 'V' then .version else .unknown
  | _ => .path text

def isValue (text : String) : Bool :=
  match Argument.ofString text with
  | .path _ => true
  | _ => false

def readPaths (s : Seen) : List String → Request
  | [] => s.request
  | a :: r =>
    match s.addPath? a with
    | some s => readPaths s r
    | none => .misused

def readArguments (s : Seen) : List String → Request
  | [] => s.request
  | a :: r =>
    match Argument.ofString a with
    | .onlyPaths => readPaths s r
    | .help => .help
    | .version => .version
    | .listFormats => if s.listFormats then .misused else readArguments { s with listFormats := true } r
    | .unknown => .misused
    | .path text =>
      match s.addPath? text with
      | some s => readArguments s r
      | none => .misused
    | .option o (some value) =>
      match s.addOption? o value with
      | some s => readArguments s r
      | none => .misused
    | .option o none =>
      match r with
      | [] => .misused
      | value :: r =>
        if isValue value then
          match s.addOption? o value with
          | some s => readArguments s r
          | none => .misused
        else .misused

def Request.ofArguments (args : List String) : Request := readArguments {} args

end Command

end Offside
