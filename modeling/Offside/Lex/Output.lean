import Offside.Scan.Snapshot
import Offside.Token.Lexeme

/-!
# What lexing gives

The tokens in order, the lines that were too deep, and the places where lexing can be taken up
again: the start of the text and the start of every line, with a snapshot of the state there.
-/

namespace Offside

structure Diagnostic where
  offset : Nat
  error : Stack.Error
deriving DecidableEq, Repr

namespace Diagnostic

def message (d : Diagnostic) : String := s!"{d.error.message} (at byte {d.offset})"

def shift (move : Nat → Nat) (d : Diagnostic) : Diagnostic := { d with offset := move d.offset }

end Diagnostic

structure Checkpoint where
  offset : Nat
  /-- The number of tokens before this place. -/
  index : Nat
  snapshot : List UInt8
deriving DecidableEq, Repr

structure Output where
  tokens : List Lexeme := []
  diagnostics : List Diagnostic := []
  checkpoints : List Checkpoint := []
deriving DecidableEq, Repr

namespace Output

def addToken (l : Lexeme) (o : Output) : Output := { o with tokens := l :: o.tokens }

def addDiagnostic (d : Diagnostic) (o : Output) : Output :=
  { o with diagnostics := d :: o.diagnostics }

def addCheckpoint (p : Checkpoint) (o : Output) : Output :=
  { o with checkpoints := p :: o.checkpoints }

def structureKinds (o : Output) : List Kind := structureOf o.tokens

def hasErrors (o : Output) : Bool := !o.diagnostics.isEmpty

end Output

end Offside
