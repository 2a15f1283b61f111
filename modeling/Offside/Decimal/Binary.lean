/-!
# Binary floating point numbers as fractions

A finite double is `m * 2 ^ q` with an integer `m`. Everything here is exact arithmetic on `m` and
`q`.
-/

namespace Offside

inductive Binary where
  | nan
  | infinite (negative : Bool)
  | finite (negative : Bool) (m : Nat) (q : Int)
deriving DecidableEq, Repr

namespace Binary

def leading : Nat := 0x10000000000000

def ofFloat (x : Float) : Binary :=
  let bits := x.toBits.toNat
  let negative : Bool := bits / (leading * 0x800) == 1
  let exponent : Nat := bits / leading % 0x800
  let fraction : Nat := bits % leading
  if exponent = 2047 then if fraction = 0 then infinite negative else nan
  else if exponent = 0 then finite negative fraction (-1074)
  else finite negative (leading + fraction) ((exponent : Int) - 1075)

/-- The fraction `m * 2 ^ q`, as a numerator and a denominator. -/
def fraction (m : Nat) (q : Int) : Nat × Nat :=
  if 0 ≤ q then (m * Nat.pow 2 q.toNat, 1) else (m, Nat.pow 2 (-q).toNat)

/-- The nearest natural number up to `limit`; a half goes up, and what is below zero or not a number
is zero. -/
def toNat (limit : Nat) : Binary → Nat
  | nan => 0
  | infinite negative => if negative then 0 else limit
  | finite negative m q =>
    if negative then 0
    else
      let (num, den) := fraction m q
      min limit ((2 * num + den) / (2 * den))

end Binary

end Offside
