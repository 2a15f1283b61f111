/-!
# Paths to settings

A path names a key and goes on by further keys and list places: `scanner.max_depth`, `list[2]`.
Keys are made of ASCII letters, digits, `_`, `-` and spaces.
-/

namespace Offside

structure KeyPath where
  key : String
  steps : List (String ⊕ Int)
deriving DecidableEq, Repr

namespace KeyPath

inductive Fault where
  /-- It does not start with a key. -/
  | noKey
  /-- Something stands where a key or a list place could go on. -/
  | unexpected
  /-- A list place is not a number. -/
  | noNumber
  /-- A list place is a number that is too large. -/
  | numberTooLarge
deriving DecidableEq, Repr

def Fault.message : Fault → String
  | noKey => "IsA"
  | unexpected => "Char"
  | noNumber => "Digit"
  | numberTooLarge => "Map on Result"

def isKeyChar (c : Char) : Bool := c.isAlphanum || c == '_' || c == '-' || c == ' '

def isBlank (c : Char) : Bool := c == ' ' || c == '\t'

def takeKey (text : List Char) : Option (String × List Char) :=
  let key := text.takeWhile isKeyChar
  if key.isEmpty then none else some (String.ofList key, text.dropWhile isKeyChar)

def numeral (digits : List Char) : Nat :=
  digits.foldl (fun n c => 10 * n + (c.toNat - '0'.toNat)) 0

def maxPlace : Nat := 0x7fffffffffffffff

def takePlace (text : List Char) : Except Fault (Int × List Char) :=
  let text := text.dropWhile isBlank
  let (negative, text) := match text with
    | '-' :: r => (true, r)
    | r => (false, r)
  let digits := text.takeWhile Char.isDigit
  if digits.isEmpty then .error .noNumber
  else
    let n := numeral digits
    if (if negative then maxPlace + 1 else maxPlace) < n then .error .numberTooLarge
    else
      match (text.dropWhile Char.isDigit).dropWhile isBlank with
      | ']' :: r => .ok (if negative then -n else n, r)
      | _ => .error .unexpected

def steps? : Nat → List Char → Except Fault (List (String ⊕ Int))
  | _, [] => .ok []
  | 0, _ => .error .unexpected
  | n + 1, '.' :: r =>
    match takeKey r with
    | some (key, r) => (steps? n r).map (.inl key :: ·)
    | none => .error .unexpected
  | n + 1, '[' :: r =>
    match takePlace r with
    | .ok (place, r) => (steps? n r).map (.inr place :: ·)
    | .error e => .error e
  | _ + 1, _ => .error .unexpected

def ofString? (text : String) : Except Fault KeyPath :=
  match takeKey text.toList with
  | none => .error .noKey
  | some (key, r) => (steps? r.length r).map (⟨key, ·⟩)

def render : List (String ⊕ Int) → String
  | [] => ""
  | .inl key :: r =>
    key ++ (match r with
      | .inl _ :: _ => "."
      | _ => "") ++ render r
  | .inr place :: r =>
    s!"[{place}]" ++ (match r with
      | .inl _ :: _ => "."
      | _ => "") ++ render r

end KeyPath

end Offside
