/-!
# Structural kinds

The kinds of token that carry the structure of a document, and sets of them. A host passes the set
of the kinds it can take at its place.
-/

namespace Offside

inductive Kind where
  /-- A line ends, or the last line ends at the end of the text. -/
  | lineBreak
  /-- The line is deeper than the innermost open level. -/
  | indentOpen
  /-- The innermost open level ends. -/
  | indentClose
  /-- The line stands at the innermost open level. -/
  | sameLevel
  /-- A comment up to the end of its line. -/
  | comment
deriving DecidableEq, Repr

namespace Kind

def all : List Kind := [lineBreak, indentOpen, indentClose, sameLevel, comment]

theorem mem_all (k : Kind) : k ∈ all := by cases k <;> decide

def name : Kind → String
  | lineBreak => "LINE_BREAK"
  | indentOpen => "INDENT_OPEN"
  | indentClose => "INDENT_CLOSE"
  | sameLevel => "SAME_LEVEL"
  | comment => "COMMENT"

def label : Kind → String
  | lineBreak => "LineBreak"
  | indentOpen => "IndentOpen"
  | indentClose => "IndentClose"
  | sameLevel => "SameLevel"
  | comment => "Comment"

def ofName? (s : String) : Option Kind := all.find? (·.name == s)

def isIndentation : Kind → Bool
  | indentOpen | indentClose | sameLevel => true
  | _ => false

end Kind

structure KindSet where
  contains : Kind → Bool

namespace KindSet

def empty : KindSet := ⟨fun _ => false⟩

def full : KindSet := ⟨fun _ => true⟩

def insert (k : Kind) (s : KindSet) : KindSet := ⟨fun j => j == k || s.contains j⟩

def erase (k : Kind) (s : KindSet) : KindSet := ⟨fun j => j != k && s.contains j⟩

def ofList (ks : List Kind) : KindSet := ⟨ks.contains⟩

def toList (s : KindSet) : List Kind := Kind.all.filter s.contains

def isEmpty (s : KindSet) : Bool := s.toList.isEmpty

def takesIndentation (s : KindSet) : Bool :=
  s.contains .indentOpen || s.contains .indentClose || s.contains .sameLevel

def text (s : KindSet) : String :=
  "\x7b" ++ ", ".intercalate (s.toList.map Kind.label) ++ "\x7d"

@[simp] theorem mem_toList {s : KindSet} {k : Kind} : k ∈ s.toList ↔ s.contains k = true := by
  simp [toList, Kind.mem_all]

end KindSet

end Offside
