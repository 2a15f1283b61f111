/-!
# Output formats
-/

namespace Offside

inductive Format where
  | simple
  | json
  | yaml
  | kinds
  | snapshots
deriving DecidableEq, Repr

namespace Format

def all : List Format := [simple, json, yaml, kinds, snapshots]

def name : Format → String
  | simple => "token-simple"
  | json => "token-json"
  | yaml => "token-yaml"
  | kinds => "structure"
  | snapshots => "snapshots"

def label : Format → String
  | simple => "TokenSimple"
  | json => "TokenJson"
  | yaml => "TokenYaml"
  | kinds => "Structure"
  | snapshots => "Snapshots"

def ofName? (s : String) : Option Format := all.find? (·.name == s)

def unknownMessage (s : String) : String := s!"unknown output format '{s}'"

end Format

end Offside
