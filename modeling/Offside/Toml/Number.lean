import Offside.Toml.Lexical

/-!
# Numbers of TOML

Integers in four bases and floating point numbers. Underscores may stand between digits.
-/

namespace Offside

namespace Toml

/-- Digits with underscores between them, without the underscores. -/
def digitsFrom (isDigit : Char → Bool) : List Char → List Char × List Char
  | '_' :: c :: r =>
    if isDigit c then
      let (ds, rest) := digitsFrom isDigit r
      (c :: ds, rest)
    else ([], '_' :: c :: r)
  | c :: r =>
    if isDigit c then
      let (ds, rest) := digitsFrom isDigit r
      (c :: ds, rest)
    else ([], c :: r)
  | [] => ([], [])

/-- As `digitsFrom`, with a digit in front. -/
def digits? (isDigit : Char → Bool) : List Char → Option (List Char × List Char)
  | c :: r =>
    if isDigit c then
      let (ds, rest) := digitsFrom isDigit r
      some (c :: ds, rest)
    else none
  | [] => none

def ofDigits (base : Nat) (ds : List Char) : Nat :=
  ds.foldl (fun n c => base * n + (hexDigit? c).getD 0) 0

def sign : List Char → Bool × List Char
  | '+' :: r => (false, r)
  | '-' :: r => (true, r)
  | r => (false, r)

def decimal? : List Char → Option (List Char × List Char)
  | '0' :: r => some (['0'], r)
  | r => digits? Char.isDigit r

/-! ## Integers -/

def greatest : Nat := 0x7fffffffffffffff

def inBase? (base : Nat) (isDigit : Char → Bool) (text : List Char) : Option (Int × List Char) :=
  (digits? isDigit text).bind fun (ds, r) =>
    let n := ofDigits base ds
    if n ≤ greatest then some (n, r) else none

def integer? (text : List Char) : Option (Int × List Char) :=
  match text with
  | '0' :: 'x' :: r => inBase? 16 (fun c => (hexDigit? c).isSome) r
  | '0' :: 'o' :: r => inBase? 8 (fun c => '0' ≤ c && c ≤ '7') r
  | '0' :: 'b' :: r => inBase? 2 (fun c => c == '0' || c == '1') r
  | _ =>
    let (negative, r) := sign text
    (decimal? r).bind fun (ds, r) =>
      let n := ofDigits 10 ds
      if negative then if n ≤ greatest + 1 then some (-n, r) else none
      else if n ≤ greatest then some (n, r) else none

/-! ## Floating point numbers -/

def infinity : Float := 1.0 / 0.0

def nearest (m digits : Nat) (e : Int) : Float :=
  if m = 0 ∨ digits + e < -400 then 0.0
  else if 400 < digits + e then infinity
  else Float.ofScientific m (e < 0) e.natAbs

def exponent? : List Char → Option (Int × List Char)
  | c :: r =>
    if c = 'e' ∨ c = 'E' then
      let (negative, r) := sign r
      (digits? Char.isDigit r).map fun (ds, r) =>
        let n : Int := ofDigits 10 ds
        (if negative then -n else n, r)
    else none
  | [] => none

def fractionAndExponent? : List Char → Option (List Char × Int × List Char)
  | '.' :: r => do
    let (ds, r) ← digits? Char.isDigit r
    match exponent? r with
    | some (e, r) => return (ds, e, r)
    | none => return (ds, 0, r)
  | r => (exponent? r).map fun (e, r) => ([], e, r)

def float? (text : List Char) : Option (Float × List Char) :=
  let (negative, r) := sign text
  match r with
  | 'i' :: 'n' :: 'f' :: r => some (if negative then -infinity else infinity, r)
  | 'n' :: 'a' :: 'n' :: r => some (0.0 / 0.0, r)
  | _ => do
    let (whole, r) ← decimal? r
    let (part, e, r) ← fractionAndExponent? r
    let ds := (whole ++ part).dropWhile (· == '0')
    let x := nearest (ofDigits 10 ds) ds.length (e - part.length)
    if negative then return (-x, r)
    else if x == infinity then none
    else return (x, r)

end Toml

end Offside
