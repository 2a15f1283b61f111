import Offside.Indent.Stack
import Offside.Token.Kind

/-!
# Variants of the layout rule

Grammars disagree on whether lines at the open level get a token, whether spaces may stand among
the tabs, whether a carriage return belongs to the terminator, whether the scanner reads comments,
and whether a text that ends with a terminator gets one more. `Config` chooses.
-/

namespace Offside

/-- When the end of the text counts as a line break. -/
inductive FinalBreak where
  | always
  /-- Only if the last line has no terminator. -/
  | whenMissing
deriving DecidableEq, Repr

def FinalBreak.name : FinalBreak → String
  | always => "always"
  | whenMissing => "when-missing"

def FinalBreak.all : List FinalBreak := [always, whenMissing]

structure Config where
  /-- Lines at the open level get a token. -/
  sameLevel : Bool := false
  /-- Spaces among the tabs do not count. Otherwise a space ends the indentation. -/
  ignoreSpaces : Bool := true
  /-- A carriage return before a line feed belongs to the terminator, and alone it is nothing. -/
  crlf : Bool := true
  /-- What starts a comment. -/
  commentMark : Option Char := none
  /-- How many levels fit, the document's included. -/
  maxDepth : Nat := Stack.defaultCapacity
  finalBreak : FinalBreak := .always
deriving DecidableEq, Repr

namespace Config

/-- Characters that stand among the tabs and do not count. -/
def isFiller (cfg : Config) (c : Char) : Bool :=
  (c == ' ' && cfg.ignoreSpaces) || (c == '\r' && cfg.crlf)

def isIndent (cfg : Config) (c : Char) : Bool := c == '\t' || cfg.isFiller c

def isCommentMark (cfg : Config) (c : Char) : Bool := cfg.commentMark == some c

def endsComment (cfg : Config) (c : Char) : Bool := c == '\n' || (c == '\r' && cfg.crlf)

def kinds (cfg : Config) : KindSet := ⟨fun
  | .sameLevel => cfg.sameLevel
  | .comment => cfg.commentMark.isSome
  | _ => true⟩

@[simp] theorem contains_lineBreak (cfg : Config) : cfg.kinds.contains .lineBreak = true := rfl

@[simp] theorem contains_indentOpen (cfg : Config) : cfg.kinds.contains .indentOpen = true := rfl

@[simp] theorem contains_indentClose (cfg : Config) : cfg.kinds.contains .indentClose = true := rfl

@[simp] theorem contains_sameLevel (cfg : Config) :
    cfg.kinds.contains .sameLevel = cfg.sameLevel := rfl

@[simp] theorem contains_comment (cfg : Config) :
    cfg.kinds.contains .comment = cfg.commentMark.isSome := rfl

@[simp] theorem takesIndentation_kinds (cfg : Config) : cfg.kinds.takesIndentation = true := rfl

/-! ## Indentation -/

inductive Measure where
  /-- The line holds nothing, or only a comment. -/
  | blank
  | line (depth : Nat)
deriving DecidableEq, Repr

/-- The tabs among the indentation at the front of a text, as far as depths are counted. -/
def depthOf (cfg : Config) (rest : List Char) : Nat :=
  min ((rest.takeWhile cfg.isIndent).count '\t') deepest

/-- The indentation at the front of a text. Tabs that run into the end of the text are a line. -/
def measure (cfg : Config) (rest : List Char) : Measure :=
  match rest.dropWhile cfg.isIndent with
  | [] => if 0 < cfg.depthOf rest then .line (cfg.depthOf rest) else .blank
  | c :: _ => if c == '\n' || cfg.isCommentMark c then .blank else .line (cfg.depthOf rest)

theorem dropWhile_length_lt_of_measure {cfg : Config} {rest : List Char} {d : Nat}
    (h : cfg.measure rest = .line d) (pos : 0 < d) :
    (rest.dropWhile cfg.isIndent).length < rest.length := by
  have hd : 0 < cfg.depthOf rest := by
    unfold measure at h
    split at h <;> split at h <;> cases h <;> exact pos
  have : rest.takeWhile cfg.isIndent ≠ [] := by
    intro e; simp [depthOf, e] at hd
  have hl : (rest.takeWhile cfg.isIndent ++ rest.dropWhile cfg.isIndent).length = rest.length := by
    rw [List.takeWhile_append_dropWhile]
  have := List.length_pos_iff.2 this
  rw [List.length_append] at hl; omega

end Config

end Offside
