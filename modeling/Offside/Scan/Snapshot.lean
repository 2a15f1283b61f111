import Offside.Scan.State

/-!
# Snapshots

A state in a few bytes: the number of levels, each level as a little-endian 32-bit word from the
document's on, and a byte for each flag. The count is a byte, so of a taller stack only the bottom
255 levels are written, and no snapshot is longer than `maxBytes`. Bytes of any other shape stand
for the initial state.
-/

namespace Offside

namespace Snapshot

def maxBytes : Nat := 1024

def maxLevels : Nat := 255

def word (n : Nat) : List UInt8 :=
  [.ofNat n, .ofNat (n / 0x100), .ofNat (n / 0x10000), .ofNat (n / 0x1000000)]

def ofWord (a b c d : UInt8) : Nat :=
  a.toNat + 0x100 * b.toNat + 0x10000 * c.toNat + 0x1000000 * d.toNat

def flag (b : Bool) : UInt8 := if b then 1 else 0

def ofFlag? (b : UInt8) : Option Bool :=
  if b = 0 then some false else if b = 1 then some true else none

def words? : Nat → List UInt8 → Option (List Nat × List UInt8)
  | 0, r => some ([], r)
  | n + 1, a :: b :: c :: d :: r => (words? n r).map fun (ws, r) => (ofWord a b c d :: ws, r)
  | _ + 1, _ => none

def encode (s : State) : List UInt8 :=
  let levels := s.stack.levels.take maxLevels
  UInt8.ofNat levels.length :: levels.flatMap word ++ [flag s.atLineStart, flag s.finalBreakDone]

/-- The state that bytes stand for, with room for at least `capacity` levels. -/
def decode? (capacity : Nat) : List UInt8 → Option State
  | [] => none
  | n :: r =>
    match words? n.toNat r with
    | some (levels, [l, f]) => do
      let stack ← Stack.ofLevels? levels capacity
      return ⟨stack, ← ofFlag? l, ← ofFlag? f⟩
    | _ => none

/-- As `decode?`, with the initial state for bytes that are not a snapshot. -/
def restore (capacity : Nat) (bytes : List UInt8) : State :=
  (decode? capacity bytes).getD (.initial capacity)

end Snapshot

end Offside
