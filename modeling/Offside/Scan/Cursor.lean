import Offside.Text.Point

/-!
# Reading a source

A cursor stands in a source and keeps the token that is open: where it starts, the place its end
was fixed at, if any, and whether a character of it has been read. Characters passed over before
the first of them move the start of the token along. Closing a token goes back to the fixed end, so
what was read after it will be read again.
-/

namespace Offside

structure Cursor where
  source : List Char
  here : Point
  /-- The offset where the open token starts. -/
  start : Nat
  /-- Where the end of the open token is fixed. -/
  commit : Option Point
  /-- Whether a character of the open token has been read. -/
  started : Bool
deriving DecidableEq, Repr

namespace Cursor

/-- At the last place between characters that is not after `offset`, with no token begun. -/
def atOffset (source : List Char) (offset : Nat) : Cursor :=
  let p := Point.atOffset source offset
  ⟨source, p, p.offset, none, false⟩

def ofSource (source : List Char) : Cursor := atOffset source 0

def position (c : Cursor) : Nat := c.here.offset

def rest (c : Cursor) : List Char := c.here.rest

def look (c : Cursor) : Option Char := c.rest.head?

def atEnd (c : Cursor) : Bool := c.rest.isEmpty

/-- Opens a token here. -/
def begin (c : Cursor) : Cursor :=
  { c with start := c.here.offset, commit := none, started := false }

/-- Past one character, which is left out of the token if `skip` holds and the token has not
started. At the end of the source nothing happens. -/
def advance (skip : Bool) (c : Cursor) : Cursor :=
  match c.rest with
  | [] => c
  | _ :: _ =>
    if skip && !c.started then { c with here := c.here.next, start := c.here.next.offset }
    else { c with here := c.here.next, started := true }

/-- Past all characters from here on that satisfy `p`. -/
def advanceWhile (p : Char → Bool) (skip : Bool) (c : Cursor) : Cursor := go c.rest c
where
  go : List Char → Cursor → Cursor
    | [], c => c
    | x :: r, c => if p x then go r (c.advance skip) else c

/-- Fixes the end of the open token here. -/
def mark (c : Cursor) : Cursor := { c with commit := some c.here }

/-- Where the open token ends, unless more is read. -/
def stop (c : Cursor) : Point := c.commit.getD c.here

/-- The start of the open token, or its end where that comes first. -/
def tokenStart (c : Cursor) : Nat := min c.start c.stop.offset

/-- Stands at `p`, with no token begun. -/
def jump (p : Point) (c : Cursor) : Cursor := ⟨c.source, p, p.offset, none, false⟩

/-- Closes the token and goes back to its end. -/
def close (c : Cursor) : Cursor := c.jump c.stop

/-- Goes to an offset, with no token begun. -/
def moveTo (offset : Nat) (c : Cursor) : Cursor := atOffset c.source offset

/-! ## What the operations do to the place -/

@[simp] theorem here_begin (c : Cursor) : c.begin.here = c.here := rfl

@[simp] theorem here_mark (c : Cursor) : c.mark.here = c.here := rfl

@[simp] theorem commit_begin (c : Cursor) : c.begin.commit = none := rfl

@[simp] theorem here_close (c : Cursor) : c.close.here = c.stop := rfl

@[simp] theorem stop_mark (c : Cursor) : c.mark.stop = c.here := rfl

@[simp] theorem here_advance (skip : Bool) (c : Cursor) : (c.advance skip).here = c.here.next := by
  unfold advance rest
  split
  · next h => simp [Point.next, h]
  · split <;> rfl

@[simp] theorem commit_advance (skip : Bool) (c : Cursor) : (c.advance skip).commit = c.commit := by
  unfold advance
  split
  · rfl
  · split <;> rfl

theorem commit_go (p : Char → Bool) (skip : Bool) (r : List Char) (c : Cursor) :
    (advanceWhile.go p skip r c).commit = c.commit := by
  induction r generalizing c with
  | nil => rfl
  | cons x r ih => simp only [advanceWhile.go]; split <;> simp [ih]

@[simp] theorem commit_advanceWhile (p : Char → Bool) (skip : Bool) (c : Cursor) :
    (c.advanceWhile p skip).commit = c.commit := commit_go p skip c.rest c

theorem here_go (p : Char → Bool) (skip : Bool) (r : List Char) (c : Cursor) (h : c.here.rest = r) :
    (advanceWhile.go p skip r c).here = c.here.past (r.takeWhile p) (r.dropWhile p) := by
  induction r generalizing c with
  | nil => rw [← h]; simp [advanceWhile.go, Point.past, h]; simp [← h]
  | cons x r ih =>
    by_cases hx : p x
    · have hn : c.here.next = ⟨c.here.offset + x.utf8Size, r⟩ := by simp [Point.next, h]
      rw [advanceWhile.go, if_pos hx, ih _ (by simp [hn])]
      simp [hx, hn, Point.past, Nat.add_assoc]
    · rw [advanceWhile.go, if_neg hx]
      simp [hx, Point.past]; simp [← h]

@[simp] theorem here_advanceWhile (p : Char → Bool) (skip : Bool) (c : Cursor) :
    (c.advanceWhile p skip).here = c.here.past (c.rest.takeWhile p) (c.rest.dropWhile p) :=
  here_go p skip c.rest c rfl

theorem reaches_advanceWhile (p : Char → Bool) (skip : Bool) (c : Cursor) :
    c.here.Reaches (c.advanceWhile p skip).here := by
  rw [here_advanceWhile]
  exact Point.reaches_past (List.takeWhile_append_dropWhile).symm

end Cursor

end Offside
