import Offside.Decimal.Shortest

/-!
# Floating point numbers as text

The shortest decimal of a double, written without an exponent or with one where the number is very
large or very small.
-/

namespace Offside

/-- Which numbers are written with an exponent, and which of two equally short and near decimals is
written. -/
structure DecimalStyle where
  /-- The most digits before the point without an exponent, if there is a most. -/
  wholeDigits : Option Nat
  /-- The most zeros behind the point, if there is a most. -/
  leadingZeros : Option Nat
  tie : Tie
deriving DecidableEq, Repr

namespace DecimalStyle

def positional : DecimalStyle := ⟨none, none, .up⟩

/-- With an exponent from `10 ^ 16` and below `10 ^ -5`. -/
def scientific : DecimalStyle := ⟨some 16, some 4, .toEven⟩

def zeros (n : Nat) : String := "".pushn '0' n

def placed (digits : String) (point : Int) : String :=
  let count := digits.length
  if point ≤ 0 then "0." ++ zeros (-point).toNat ++ digits
  else if count ≤ point.toNat then digits ++ zeros (point.toNat - count) ++ ".0"
  else (digits.take point.toNat).toString ++ "." ++ (digits.drop point.toNat).toString

def signed (n : Int) : String := (if n < 0 then "-" else "+") ++ toString n.natAbs

def exponential (digits : String) (point : Int) : String :=
  let first := (digits.take 1).toString
  let others := (digits.drop 1).toString
  first ++ (if others.isEmpty then "" else "." ++ others) ++ "e" ++ signed (point - 1)

def trimZeros (digits : List Char) : List Char := (digits.reverse.dropWhile (· == '0')).reverse

def magnitude (style : DecimalStyle) (m : Nat) (q : Int) : String :=
  if m = 0 then "0.0"
  else
    let d := Shortest.ofBinary style.tie m q
    let all := Nat.toDigits 10 d.digits
    let digits := String.ofList (trimZeros all)
    let point := d.exponent + all.length
    let tooLarge := match style.wholeDigits with
      | some n => decide ((n : Int) < point)
      | none => false
    let tooSmall := match style.leadingZeros with
      | some n => decide (point < -n)
      | none => false
    if tooLarge || tooSmall then exponential digits point else placed digits point

def text (style : DecimalStyle) (x : Float) : String :=
  match Binary.ofFloat x with
  | .nan => "NaN"
  | .infinite negative => if negative then "-inf" else "inf"
  | .finite negative m q => (if negative then "-" else "") ++ style.magnitude m q

end DecimalStyle

end Offside
