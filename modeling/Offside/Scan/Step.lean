import Offside.Scan.Config
import Offside.Scan.Cursor
import Offside.Scan.State

/-!
# One step of the scanner

`tryScan` decides on at most one structural token, from the next character, the flags, the open
levels and the kinds that are acceptable. The order is fixed: the end of the text, a line
terminator, a comment, the indentation of a line. A kind that is not acceptable is never produced;
the step then produces nothing, though it may have read on. `tryScan_reaches` says that a step only
ever reads forward.
-/

namespace Offside

inductive Verdict where
  | produced (kind : Kind)
  | nothing
  | refused (why : Stack.Error)
deriving DecidableEq, Repr

structure Outcome where
  verdict : Verdict
  state : State
  cursor : Cursor
deriving DecidableEq, Repr

namespace Scan

def lineBreak (s : State) (c : Cursor) : Outcome :=
  ⟨.produced .lineBreak, { s with atLineStart := true }, c.mark⟩

/-- Whether the end of the text is still to be given a line break. -/
def finalBreakDue (cfg : Config) (s : State) : Bool :=
  !s.finalBreakDone &&
    match cfg.finalBreak with
    | .always => true
    | .whenMissing => !s.atLineStart

/-- At the end of the text: its line break once, then an end for each open level. -/
def atEnd (cfg : Config) (valid : KindSet) (s : State) (c : Cursor) : Outcome :=
  if finalBreakDue cfg s && valid.contains .lineBreak then
    lineBreak { s with finalBreakDone := true } c
  else if !s.stack.isBase && valid.contains .indentClose then
    ⟨.produced .indentClose, { s with stack := s.stack.pop }, c.mark⟩
  else ⟨.nothing, s, c⟩

/-- At a carriage return that may belong to a terminator. Alone it is passed over. -/
def carriageReturn (s : State) (c : Cursor) : Outcome :=
  let c := c.advance false
  if c.look = some '\n' then lineBreak s (c.advance false) else ⟨.nothing, s, c⟩

def comment (cfg : Config) (s : State) (c : Cursor) : Outcome :=
  ⟨.produced .comment, { s with atLineStart := false },
    (c.advanceWhile (fun x => !cfg.endsComment x) false).mark⟩

/-- A line of the given depth, with its indentation read and the end of the token fixed before it.
The end moves here when the depth is settled. A line that ends several levels leaves it for each but
the last, and is measured again. -/
def line (cfg : Config) (valid : KindSet) (s : State) (depth : Nat) (c : Cursor) : Outcome :=
  if s.stack.top < depth then
    if valid.contains .indentOpen then
      match s.stack.push depth with
      | .ok stack => ⟨.produced .indentOpen, { s with stack }, c.mark⟩
      | .error e => ⟨.refused e, s, c⟩
    else ⟨.nothing, s, c⟩
  else if depth < s.stack.top then
    if valid.contains .indentClose then
      let stack := s.stack.pop
      if depth < stack.top then ⟨.produced .indentClose, { s with stack, atLineStart := true }, c⟩
      else ⟨.produced .indentClose, { s with stack }, c.mark⟩
    else ⟨.nothing, s, c⟩
  else if cfg.sameLevel && valid.contains .sameLevel then ⟨.produced .sameLevel, s, c.mark⟩
  else ⟨.nothing, s, c⟩

def indentation (cfg : Config) (valid : KindSet) (s : State) (c : Cursor) : Outcome :=
  let after := c.mark.advanceWhile cfg.isIndent true
  match cfg.measure c.rest with
  | .blank => ⟨.nothing, if after.atEnd then { s with atLineStart := false } else s, after⟩
  | .line depth => line cfg valid { s with atLineStart := false } depth after

end Scan

/-- One step. A line that is too deep is refused: it counts as a line of the open level. -/
def tryScan (cfg : Config) (valid : KindSet) (s : State) (c : Cursor) : Outcome :=
  match c.look with
  | none => Scan.atEnd cfg valid s c
  | some x =>
    if x = '\n' ∧ valid.contains .lineBreak then Scan.lineBreak s (c.advance false)
    else if x = '\r' ∧ cfg.crlf ∧ valid.contains .lineBreak then Scan.carriageReturn s c
    else if cfg.isCommentMark x ∧ valid.contains .comment then Scan.comment cfg s c
    else if s.atLineStart ∧ valid.takesIndentation then Scan.indentation cfg valid s c
    else ⟨.nothing, s, c⟩

/-- A step where a refusal is no different from nothing. -/
def scan (cfg : Config) (valid : KindSet) (s : State) (c : Cursor) : Option Kind × State × Cursor :=
  let o := tryScan cfg valid s c
  match o.verdict with
  | .produced kind => (some kind, o.state, o.cursor)
  | _ => (none, o.state, o.cursor)

/-! ## Steps read forward -/

namespace Scan

theorem atEnd_here {cfg : Config} {valid : KindSet} {s : State} {c : Cursor} :
    (atEnd cfg valid s c).cursor.here = c.here := by
  unfold atEnd lineBreak; split
  · rfl
  · split <;> rfl

theorem carriageReturn_reaches {s : State} {c : Cursor} :
    c.here.Reaches (carriageReturn s c).cursor.here := by
  unfold carriageReturn lineBreak; simp only; split
  · simpa using (Point.reaches_next _).trans (Point.reaches_next _)
  · simpa using Point.reaches_next _

theorem line_here {cfg : Config} {valid : KindSet} {s : State} {depth : Nat} {c : Cursor} :
    (line cfg valid s depth c).cursor.here = c.here := by
  unfold line
  split
  · split
    · split <;> rfl
    · rfl
  · split
    · split
      · simp only; split <;> rfl
      · rfl
    · split <;> rfl

theorem indentation_here {cfg : Config} {valid : KindSet} {s : State} {c : Cursor} :
    (indentation cfg valid s c).cursor.here = (c.advanceWhile cfg.isIndent true).here := by
  unfold indentation
  simp only
  split
  · simp [Cursor.rest]
  · rw [line_here]; simp [Cursor.rest]

theorem indentation_reaches {cfg : Config} {valid : KindSet} {s : State} {c : Cursor} :
    c.here.Reaches (indentation cfg valid s c).cursor.here :=
  indentation_here ▸ Cursor.reaches_advanceWhile _ _ _

end Scan

theorem tryScan_reaches (cfg : Config) (valid : KindSet) (s : State) (c : Cursor) :
    c.here.Reaches (tryScan cfg valid s c).cursor.here := by
  unfold tryScan
  split
  · rw [Scan.atEnd_here]; exact .refl _
  · split
    · simpa [Scan.lineBreak] using Point.reaches_next _
    · split
      · exact Scan.carriageReturn_reaches
      · split
        · exact Cursor.reaches_advanceWhile _ _ _
        · split
          · exact Scan.indentation_reaches
          · exact .refl _

end Offside
