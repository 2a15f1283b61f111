import Offside.Decimal.Binary

/-!
# The fewest digits that read back

The shortest decimal that rounds to a given double, and of those the nearest; a `Tie` says which of
two that are equally near. A decimal rounds to the double if it lies between the midpoints to the
two neighbours, the midpoints included when `m` is even. For 1, 2, … 17 digits the two grid points
around the value are tried in exact arithmetic.
-/

namespace Offside

/-- Which of two numbers next to each other is taken for a value halfway between them. -/
inductive Tie where
  | up
  | toEven
deriving DecidableEq, Repr

def Tie.round (tie : Tie) (n d : Nat) : Nat :=
  match compare (2 * (n % d)) d with
  | .lt => n / d
  | .gt => n / d + 1
  | .eq =>
    match tie with
    | up => n / d + 1
    | toEven => if n / d % 2 = 0 then n / d else n / d + 1

namespace Shortest

structure Decimal where
  digits : Nat
  exponent : Int
deriving DecidableEq, Repr

def powerAtMost (num den : Nat) (e : Int) : Bool :=
  if 0 ≤ e then Nat.pow 10 e.toNat * den ≤ num else den ≤ num * Nat.pow 10 (-e).toNat

/-- The greatest `e` with `10 ^ e` at most `num / den`, searched downwards from `e`. -/
def magnitude (num den : Nat) : Nat → Int → Int
  | 0, e => e
  | n + 1, e => if powerAtMost num den e then e else magnitude num den n (e - 1)

/-- Whether `d * 10 ^ e` lies between the midpoints around `m * 2 ^ q`. -/
def readsBack (m : Nat) (q : Int) (d : Nat) (e : Int) : Bool :=
  -- the midpoints are `low` and `high` quarters of the last place
  let low := if m = Binary.leading ∧ -1074 < q then 4 * m - 1 else 4 * m - 2
  let high := 4 * m + 2
  let (tn, td) := if 0 ≤ e then (Nat.pow 10 e.toNat, 1) else (1, Nat.pow 10 (-e).toNat)
  let (ln, ld) := Binary.fraction low (q - 2)
  let (hn, hd) := Binary.fraction high (q - 2)
  let above := compare (d * tn * ld) (ln * td)
  let below := compare (d * tn * hd) (hn * td)
  if m % 2 = 0 then above != .lt && below != .gt else above == .gt && below == .lt

def onGrid (tie : Tie) (m : Nat) (q : Int) (e : Int) (k : Nat) : Option Decimal :=
  let x := e - (k - 1 : Nat)
  let (vn, vd) := Binary.fraction m q
  -- the value in units of `10 ^ x`
  let (n, d) := if 0 ≤ x then (vn, vd * Nat.pow 10 x.toNat) else (vn * Nat.pow 10 (-x).toNat, vd)
  let below := n / d
  let fits := readsBack m q below x
  let nextFits := readsBack m q (below + 1) x
  if fits && nextFits then
    some ⟨tie.round n d, x⟩
  else if fits then some ⟨below, x⟩
  else if nextFits then some ⟨below + 1, x⟩
  else none

/-- The shortest decimal for `m * 2 ^ q`. -/
def ofBinary (tie : Tie) (m : Nat) (q : Int) : Decimal :=
  if m = 0 then ⟨0, 0⟩
  else
    let (vn, vd) := Binary.fraction m q
    let e := magnitude vn vd 640 309
    ((List.range 17).findSome? fun k => onGrid tie m q e (k + 1)).getD ⟨m, q⟩

end Shortest

end Offside
