import Offside.Lex.Run

/-!
# Documents under editing

A document keeps its source together with the output of lexing it. An edit lexes again from the
last checkpoint before the edited range. Behind the inserted text it stops at the first checkpoint
that the previous output has too, at the corresponding offset and with an equal snapshot: from
there on the old output holds with its offsets moved.
-/

namespace Offside

structure Document where
  source : List Char
  config : Config
  output : Output
deriving DecidableEq, Repr

inductive EditError where
  | invalidRange (start stop length : Nat)
  | notBoundary (offset : Nat)
deriving DecidableEq, Repr

def EditError.message : EditError → String
  | invalidRange start stop length =>
    s!"Invalid edit range {start}..{stop} for a source of {length} bytes"
  | notBoundary offset => s!"Edit boundary {offset} is not on a character boundary"

/-- How many tokens an edit kept before it, lexed again, and kept behind it. -/
structure EditCounts where
  kept : Nat
  relexed : Nat
  reused : Nat
deriving DecidableEq, Repr

namespace Output

/-- The output before a checkpoint of it. -/
def before (p : Checkpoint) (o : Output) : Output where
  tokens := o.tokens.take p.index
  diagnostics := o.diagnostics.filter (·.offset < p.offset)
  checkpoints := o.checkpoints.takeWhile (·.offset ≤ p.offset)

/-- The output behind a checkpoint of it, moved to where `q` stands. -/
def behind (p q : Checkpoint) (o : Output) : Output :=
  let move (n : Nat) := n - p.offset + q.offset
  { tokens := (o.tokens.drop p.index).map (·.shift move)
    diagnostics := (o.diagnostics.filter (p.offset ≤ ·.offset)).map (·.shift move)
    checkpoints := (o.checkpoints.filter (p.offset < ·.offset)).map fun r =>
      { r with offset := move r.offset, index := r.index - p.index + q.index } }

def append (a b : Output) : Output where
  tokens := a.tokens ++ b.tokens
  diagnostics := a.diagnostics ++ b.diagnostics
  checkpoints := a.checkpoints ++ b.checkpoints

/-- The last checkpoint that is not after an offset. -/
def lastCheckpoint? (offset : Nat) (o : Output) : Option Checkpoint :=
  (o.checkpoints.takeWhile (·.offset ≤ offset)).getLast?

/-- The checkpoint at an offset, if it has the given snapshot. -/
def checkpointLike? (offset : Nat) (snapshot : List UInt8) (o : Output) : Option Checkpoint :=
  o.checkpoints.find? fun p => p.offset == offset && p.snapshot == snapshot

end Output

namespace Document

def ofSource (source : List Char) (config : Config) : Document :=
  ⟨source, config, tokenize source config⟩

def cut (start stop : Nat) (source : List Char) : Except EditError (List Char × List Char) :=
  if stop < start ∨ byteLength source < stop then
    .error (.invalidRange start stop (byteLength source))
  else
    match takeBytes? start source, dropBytes? stop source with
    | none, _ => .error (.notBoundary start)
    | some _, none => .error (.notBoundary stop)
    | some before, some behind => .ok (before, behind)

/-- Where a checkpoint behind the inserted text, which ends at `inserted`, stood in the old source,
where the replaced text ended at `stop`: the old checkpoint there, if its snapshot is equal. -/
def rejoin? (old : Output) (inserted stop : Nat) (p : Checkpoint) : Option (Checkpoint × Checkpoint) :=
  if p.offset < inserted then none
  else (old.checkpointLike? (p.offset - inserted + stop) p.snapshot).map (·, p)

/-- The output for a source that differs from the old one only before the offset `inserted`, which
corresponds to `stop` in the old source, and only behind the checkpoint `p`. -/
def relex (source : List Char) (config : Config) (old : Output) (inserted stop : Nat)
    (p : Checkpoint) : Output × EditCounts :=
  let (new, rejoined) := (Lexer.resume source config p.offset p.snapshot).run
    (rejoin? old inserted stop) p.index
  let rest := match rejoined with
    | none => {}
    | some (o, n) => old.behind o n
  (((old.before p).append new).append rest, ⟨p.index, new.tokens.length, rest.tokens.length⟩)

def edit (start stop : Nat) (replacement : List Char) (doc : Document) :
    Except EditError (Document × EditCounts) :=
  (cut start stop doc.source).map fun (before, behind) =>
    let source := before ++ replacement ++ behind
    let (output, counts) :=
      match doc.output.lastCheckpoint? start with
      | some p => relex source doc.config doc.output (start + byteLength replacement) stop p
      | none =>
        let output := tokenize source doc.config
        (output, ⟨0, output.tokens.length, 0⟩)
    ({ doc with source, output }, counts)

end Document

end Offside
