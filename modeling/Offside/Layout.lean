import Offside.Scan.Config

/-!
# The layout rule, line by line

What the indentation of a text says, read off its lines and without a scanner. A line that counts
has a depth. Deeper than the open level, it opens one; less deep, it ends the levels deeper than
itself; and at the open level it is marked, if the variant marks such lines. What is open at the end
of the text ends there.
-/

namespace Offside

/-- What the lines of a text do: the structural kinds but for comments and the end of the text, and
the levels that could not be opened. -/
structure Layout where
  kinds : List Kind := []
  errors : List Stack.Error := []
deriving DecidableEq, Repr

namespace Layout

def nothing : Layout := {}

def append (a b : Layout) : Layout := ⟨a.kinds ++ b.kinds, a.errors ++ b.errors⟩

/-! ## Lines -/

structure Line where
  text : List Char
  /-- A line feed ends the line. Only the last line of a text has none. -/
  terminated : Bool
deriving DecidableEq, Repr

/-- The lines of a text, of which the last may be empty. -/
def lines (text : List Char) : List Line :=
  match _h : text.dropWhile (· != '\n') with
  | [] => [⟨text, false⟩]
  | _ :: r => ⟨text.takeWhile (· != '\n'), true⟩ :: lines r
termination_by text.length
decreasing_by
  have := (List.dropWhile_sublist (· != '\n') (l := text)).length_le
  simp [_h] at this; omega

def startsComment (cfg : Config) (text : List Char) : Bool := text.head?.any cfg.isCommentMark

/-- The depth of a line, unless it is a comment or blank. An unterminated line of tabs counts. -/
def Line.depth? (cfg : Config) (l : Line) : Option Nat :=
  let body := if cfg.crlf then l.text.dropWhile (· == '\r') else l.text
  let rest := l.text.dropWhile cfg.isIndent
  let depth := cfg.depthOf l.text
  if startsComment cfg body || startsComment cfg rest then none
  else if rest.isEmpty && (l.terminated || depth == 0) then none
  else some depth

/-! ## Levels -/

def closing (levels : List Nat) : Layout := { kinds := levels.map fun _ => .indentClose }

def atDepth (cfg : Config) (depth : Nat) (s : Stack) : Layout × Stack :=
  if s.top < depth then
    match s.push depth with
    | .ok t => ({ kinds := [.indentOpen] }, t)
    | .error e => ({ errors := [e] }, s)
  else if depth < s.top then
    (closing (s.opened.takeWhile (depth < ·)), { s with opened := s.opened.dropWhile (depth < ·) })
  else ({ kinds := if cfg.sameLevel then [.sameLevel] else [] }, s)

def ofLine (cfg : Config) (l : Line) (s : Stack) : Layout × Stack :=
  let (a, t) := match l.depth? cfg with
    | none => (nothing, s)
    | some depth => atDepth cfg depth s
  (a.append { kinds := if l.terminated then [.lineBreak] else [] }, t)

def ofLines (cfg : Config) : List Line → Stack → Layout
  | [], s => closing s.opened
  | l :: r, s =>
    let (a, t) := ofLine cfg l s
    a.append (ofLines cfg r t)

def ofText (cfg : Config) (text : List Char) : Layout :=
  ofLines cfg (lines text) (.ofCapacity cfg.maxDepth)

end Layout

end Offside
