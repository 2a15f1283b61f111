import Offside.Scan.Config
import Offside.Settings.Mismatch
import Offside.Settings.Value

/-!
# Scanner settings in a document

Reads the settings of a scanner from one value, as documents hold them: a table of fields, or a
list of them in order. What is left out has its default. Nothing is converted: a flag has to be a
boolean and a number a number. Of several faults in a table the one of the first field in the order
of names is reported.
-/

namespace Offside

namespace ConfigDocument

def noun (v : Value) : String := v.noun .document

def flag : Value → Except Mismatch Bool
  | .scalar _ (.bool b) => .ok b
  | v => .error (.kind (noun v) "a boolean")

def character (v : Value) : Except Mismatch Char :=
  match v with
  | .scalar _ (.text s) =>
    match s.toList with
    | [c] => .ok c
    | _ => .error (.value (noun v) "a character")
  | v => .error (.kind (noun v) "a character")

def optionalCharacter : Value → Except Mismatch (Option Char)
  | .scalar _ .null => .ok none
  | v => (character v).map some

def count (v : Value) : Except Mismatch Nat :=
  match v with
  | .scalar _ (.int n) =>
    if 0 ≤ n ∧ n.toNat ≤ maxCount then .ok n.toNat else .error (.value (noun v) "usize")
  | v => .error (.kind (noun v) "usize")

def finalBreak (v : Value) : Except Mismatch FinalBreak :=
  match v with
  | .scalar _ (.text s) => named s
  | .table _ [(s, w)] =>
    match named s, w with
    | .ok b, .scalar _ .null => .ok b
    | .ok _, w => .error (.kind (noun w) "unit")
    | .error e, _ => .error e
  | .table _ _ => .error (.value "map" "map with a single key")
  | v => .error (.kind (noun v) "string or map")
where
  named (s : String) : Except Mismatch FinalBreak :=
    match FinalBreak.all.find? (·.name == s) with
    | some b => .ok b
    | none => .error (.choice s (FinalBreak.all.map FinalBreak.name))

def field {α : Type} (read : Value → Except Mismatch α) (default : α) :
    Option Value → Except Mismatch α
  | none => .ok default
  | some v => read v

def read (v : Value) : Except Mismatch Config :=
  let d : Config := {}
  match v with
  | .table _ entries => do
    let commentMark ← field optionalCharacter d.commentMark (entries.lookup "comment_prefix")
    let crlf ← field flag d.crlf (entries.lookup "crlf")
    let finalBreak ← field finalBreak d.finalBreak (entries.lookup "final_line_break")
    let ignoreSpaces ← field flag d.ignoreSpaces (entries.lookup "ignore_spaces")
    let maxDepth ← field count d.maxDepth (entries.lookup "max_depth")
    let sameLevel ← field flag d.sameLevel (entries.lookup "same_level")
    return { sameLevel, ignoreSpaces, crlf, commentMark, maxDepth, finalBreak }
  | .list _ items => do
    let sameLevel ← field flag d.sameLevel items[0]?
    let ignoreSpaces ← field flag d.ignoreSpaces items[1]?
    let crlf ← field flag d.crlf items[2]?
    let commentMark ← field optionalCharacter d.commentMark items[3]?
    let maxDepth ← field count d.maxDepth items[4]?
    let finalBreak ← field finalBreak d.finalBreak items[5]?
    if 6 < items.length then .error (.length items.length "fewer elements in array")
    else return { sameLevel, ignoreSpaces, crlf, commentMark, maxDepth, finalBreak }
  | v => .error (.kind (noun v) "struct ScannerConfig")

end ConfigDocument

end Offside
