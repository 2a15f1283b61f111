/-!
# Open indentation levels

The depths of the levels that are open, from the document itself at depth 0 to the current one.
`Valid` says what every stack that was built by pushing satisfies: depths grow towards the top, fit
the depth counter, and are no more than the capacity. The level of the document is not stored, so
no operation can lose it.
-/

namespace Offside

/-- Depths are counted up to this number of tabs. -/
def deepest : Nat := 0xffffffff

structure Stack where
  /-- The levels above the document's, innermost first. -/
  opened : List Nat := []
  /-- The number of levels that fit, the document's included. -/
  capacity : Nat
deriving DecidableEq, Repr

namespace Stack

inductive Error where
  | full (depth capacity : Nat)
  | notDeeper (depth top : Nat)
deriving DecidableEq, Repr

def Error.message : Error → String
  | full depth capacity =>
    s!"Nesting too deep: depth {depth} needs more than {capacity} indent levels"
  | notDeeper depth top => s!"Indent depth {depth} is not deeper than the open level {top}"

def defaultCapacity : Nat := 255

/-- No level open. There is always room for the level of the document. -/
def ofCapacity (capacity : Nat) : Stack := ⟨[], max capacity 1⟩

def levels (s : Stack) : List Nat := 0 :: s.opened.reverse

def top (s : Stack) : Nat := s.opened.headD 0

def size (s : Stack) : Nat := s.opened.length + 1

def isBase (s : Stack) : Bool := s.opened.isEmpty

structure Valid (s : Stack) : Prop where
  ascending : s.levels.Pairwise (· < ·)
  bounded : ∀ d ∈ s.levels, d ≤ deepest
  fits : s.size ≤ s.capacity

def push (depth : Nat) (s : Stack) : Except Error Stack :=
  if depth ≤ s.top then .error (.notDeeper depth s.top)
  else if s.capacity ≤ s.size then .error (.full depth s.capacity)
  else .ok { s with opened := depth :: s.opened }

/-- Without the innermost level; the level of the document stays. -/
def pop (s : Stack) : Stack := { s with opened := s.opened.tail }

def popped? (s : Stack) : Option Nat := s.opened.head?

def isAscending : List Nat → Bool
  | a :: b :: r => a < b && isAscending (b :: r)
  | _ => true

/-- A stack with the given levels, the document's first, if they are such levels. It holds at least
what it is given. -/
def ofLevels? (levels : List Nat) (capacity : Nat) : Option Stack :=
  match levels with
  | 0 :: up =>
    if isAscending (0 :: up) then some ⟨up.reverse, max (max capacity 1) (up.length + 1)⟩ else none
  | _ => none

theorem isAscending_iff {ds : List Nat} : isAscending ds = true ↔ ds.Pairwise (· < ·) := by
  induction ds with
  | nil => simp [isAscending]
  | cons a r ih =>
    cases r with
    | nil => simp [isAscending]
    | cons b r =>
      simp only [isAscending, Bool.and_eq_true, decide_eq_true_eq, ih, List.pairwise_cons]
      constructor
      · rintro ⟨hab, hb, hr⟩
        refine ⟨fun x hx => ?_, hb, hr⟩
        rcases List.mem_cons.1 hx with rfl | hx
        · exact hab
        · exact Nat.lt_trans hab (hb x hx)
      · exact fun ⟨ha, hb, hr⟩ => ⟨ha b (by simp), hb, hr⟩

end Stack

end Offside
