import Offside.Scan.Config
import Offside.Settings.Format
import Offside.Settings.Mismatch
import Offside.Settings.Tree

/-!
# Settings from a tree

Reads settings from a tree of values, converting where a value can be meant as another: texts such
as `yes` and `off` and numbers are flags, texts of digits, rounded numbers and flags are counts. A
value that cannot be converted is reported with its key and the file it was written in. Choices are
named without regard to case.
-/

namespace Offside

structure Settings where
  scanner : Config := {}
  format : Format := .simple
  /-- Leaves tokens without meaning out of listings. -/
  skipTrivia : Bool := false
deriving DecidableEq, Repr

inductive SettingError where
  /-- A value that cannot be converted, with the steps to it. -/
  | unconverted (found expected : String) (key : List (String ⊕ Int)) (origin : Option String)
  | mismatch (why : Mismatch)
  /-- A choice that has no such name. -/
  | noChoice (choices name : String)
  /-- A value that names no choice. -/
  | notChoice (choices : String)
deriving DecidableEq, Repr

namespace SettingError

def message : SettingError → String
  | unconverted found expected key origin =>
    s!"invalid type: {found}, expected {expected}" ++
      (if key.isEmpty then "" else " for key `" ++ KeyPath.render key ++ "`") ++
      (match origin with
        | some file => " in " ++ file
        | none => "")
  | mismatch why => why.message
  | noChoice choices name => s!"enum {choices} does not have variant constructor {name}"
  | notChoice choices =>
    s!"value of enum {choices} should be represented by either string or table with exactly one key"

def within (step : String ⊕ Int) : SettingError → SettingError
  | unconverted found expected key origin => unconverted found expected (step :: key) origin
  | e => e

end SettingError

namespace Settings

def noun (v : Value) : String := v.noun .setting

def unconverted {α : Type} (v : Value) (expected : String) : Except SettingError α :=
  .error (.unconverted (noun v) expected [] v.origin)

def flagOf (v : Value) : Except SettingError Bool :=
  match v with
  | .scalar _ (.bool b) => .ok b
  | .scalar _ (.int n) => .ok (n != 0)
  | .scalar _ (.float x) => .ok (x != 0)
  | .scalar o (.text s) =>
    let small := lowercaseString s
    if ["1", "true", "on", "yes"].contains small then .ok true
    else if ["0", "false", "off", "no"].contains small then .ok false
    else unconverted (.scalar o (.text small)) "a boolean"
  | v => unconverted v "a boolean"

/-- Digits, with or without a plus sign, up to the greatest count. -/
def numeral? (s : String) : Option Nat :=
  let digits := match s.toList with
    | '+' :: r => r
    | r => r
  if digits.isEmpty || !digits.all Char.isDigit then none
  else
    let n := KeyPath.numeral digits
    if n ≤ maxCount then some n else none

/-- How many bits an integer is kept in: 64 with its sign, or else 128. -/
def widthOf (n : Int) : Nat := if -0x8000000000000000 ≤ n ∧ n < 0x8000000000000000 then 64 else 128

def countOf (v : Value) : Except SettingError Nat :=
  match v with
  | .scalar o (.int n) =>
    if 0 ≤ n ∧ n.toNat ≤ maxCount then .ok n.toNat
    else .error (.unconverted s!"{widthOf n}-bit integer `{n}`" "an unsigned 64 bit or less integer" [] o)
  | .scalar _ (.bool b) => .ok b.toNat
  | .scalar _ (.float x) => .ok ((Binary.ofFloat x).toNat maxCount)
  | .scalar _ (.text s) =>
    let small := lowercaseString s
    if ["true", "on", "yes"].contains small then .ok 1
    else if ["false", "off", "no"].contains small then .ok 0
    else
      match numeral? s with
      | some n => .ok n
      | none => unconverted v "an integer"
  | v => unconverted v "an integer"

def characterOf (v : Value) : Except SettingError (Option Char) :=
  match v with
  | .scalar _ .null => .ok none
  | .scalar _ (.text s) =>
    match s.toList with
    | [c] => .ok (some c)
    | _ => .error (.mismatch (.value (noun v) "a character"))
  | v => .error (.mismatch (.kind (noun v) "a character"))

/-- A choice by its name, or by a table with its name as the only key. -/
def choice {α : Type} (title : String) (choices : List (String × α)) (v : Value) :
    Except SettingError α :=
  match v with
  | .scalar _ (.text s) => named s
  | .table _ [(s, _)] => named s
  | _ => .error (.notChoice title)
where
  named (s : String) : Except SettingError α :=
    match choices.find? fun (name, _) => lowercaseString name == lowercaseString s with
    | some (_, a) => .ok a
    | none => .error (.noChoice title s)

def finalBreakOf : Value → Except SettingError FinalBreak :=
  choice "FinalLineBreak" (FinalBreak.all.map fun b => (b.name, b))

def formatOf : Value → Except SettingError Format :=
  choice "OutputFormat" (Format.all.map fun f => (f.name, f))

def readAt {α : Type} (step : String ⊕ Int) (read : Value → Except SettingError α) (v : Value) :
    Except SettingError α :=
  (read v).mapError (.within step)

def optionalField {α : Type} (read : Value → Except SettingError α) (otherwise : α)
    (step : String ⊕ Int) : Option Value → Except SettingError α
  | none => .ok otherwise
  | some v => readAt step read v

/-- The settings of a scanner: a table of fields, or a list of them in order. -/
def scannerOf (v : Value) : Except SettingError Config :=
  let d : Config := {}
  match v with
  | .table _ es => do
    let of {α : Type} (key : String) (read : Value → Except SettingError α) (otherwise : α) :=
      optionalField read otherwise (.inl key) (es.lookup key)
    let commentMark ← of "comment_prefix" characterOf d.commentMark
    let crlf ← of "crlf" flagOf d.crlf
    let finalBreak ← of "final_line_break" finalBreakOf d.finalBreak
    let ignoreSpaces ← of "ignore_spaces" flagOf d.ignoreSpaces
    let maxDepth ← of "max_depth" countOf d.maxDepth
    let sameLevel ← of "same_level" flagOf d.sameLevel
    return { sameLevel, ignoreSpaces, crlf, commentMark, maxDepth, finalBreak }
  | .list _ vs => do
    let of {α : Type} (i : Nat) (read : Value → Except SettingError α) (otherwise : α) :=
      optionalField read otherwise (.inr i) vs[i]?
    let sameLevel ← of 0 flagOf d.sameLevel
    let ignoreSpaces ← of 1 flagOf d.ignoreSpaces
    let crlf ← of 2 flagOf d.crlf
    let commentMark ← of 3 characterOf d.commentMark
    let maxDepth ← of 4 countOf d.maxDepth
    let finalBreak ← of 5 finalBreakOf d.finalBreak
    return { sameLevel, ignoreSpaces, crlf, commentMark, maxDepth, finalBreak }
  | v => .error (.mismatch (.kind (noun v) "struct ScannerConfig"))

def requiredField {α : Type} (read : Value → Except SettingError α) (key : String)
    (es : List (String × Value)) : Except SettingError α :=
  match es.lookup key with
  | none => .error (.mismatch (.missing key))
  | some v => readAt (.inl key) read v

/-- The settings of the output: a table of both fields, or a list of them in order. -/
def outputOf (v : Value) : Except SettingError (Format × Bool) :=
  match v with
  | .table _ es => do
    let format ← requiredField formatOf "format" es
    let skipTrivia ← requiredField flagOf "skip_trivia" es
    return (format, skipTrivia)
  | .list _ vs => do
    let of {α : Type} (i : Nat) (read : Value → Except SettingError α) : Except SettingError α :=
      match vs[i]? with
      | none => .error (.mismatch (.length i "struct OutputConfig with 2 elements"))
      | some v => readAt (.inr i) read v
    let format ← of 0 formatOf
    let skipTrivia ← of 1 flagOf
    return (format, skipTrivia)
  | v => .error (.mismatch (.kind (noun v) "struct OutputConfig"))

def read (tree : Value) : Except SettingError Settings := do
  let (_, es) := tree.asTable
  let (format, skipTrivia) ← requiredField outputOf "output" es
  let scanner ← requiredField scannerOf "scanner" es
  return { scanner, format, skipTrivia }

end Settings

end Offside
