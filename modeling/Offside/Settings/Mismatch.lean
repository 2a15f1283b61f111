/-!
# Values that do not fit

What is wrong with a value that a setting cannot take, with the words that messages use.
-/

namespace Offside

inductive Mismatch where
  /-- A value of another kind. -/
  | kind (found expected : String)
  /-- A value of the right kind that is not among the possible ones. -/
  | value (found expected : String)
  | length (found : Nat) (expected : String)
  /-- A name that is none of the choices. -/
  | choice (found : String) (choices : List String)
  | missing (field : String)
deriving DecidableEq, Repr

namespace Mismatch

def message : Mismatch → String
  | kind found expected => s!"invalid type: {found}, expected {expected}"
  | value found expected => s!"invalid value: {found}, expected {expected}"
  | length found expected => s!"invalid length {found}, expected {expected}"
  | choice found choices =>
    s!"unknown variant `{found}`, expected " ++ " or ".intercalate (choices.map fun c => s!"`{c}`")
  | missing field => s!"missing field `{field}`"

end Mismatch

end Offside
