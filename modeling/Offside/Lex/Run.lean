import Offside.Lex.Lexer

/-!
# Lexing to the end

`run` collects what a lexer gives. After a line break that consumed a terminator it records a
checkpoint, if a snapshot can hold the state, and asks whether to stop there. `tokenize` lexes a
whole source.
-/

namespace Offside

namespace Lexer

def checkpointAfter? (l : Lexeme) (index : Nat) (lx : Lexer) : Option Checkpoint :=
  if l.token.isLineBreak && !l.span.isEmpty then lx.checkpoint? index else none

/-- Everything up to the end or to a checkpoint where `stop?` has an answer, and that answer.
`index` tokens came before. -/
def run {α : Type} (stop? : Checkpoint → Option α) (index : Nat) (lx : Lexer) : Output × Option α :=
  match _h : lx.step with
  | (.done, _) => ({}, none)
  | (.refused d, next) =>
    let (o, a) := run stop? index next
    (o.addDiagnostic d, a)
  | (.token l, next) =>
    match next.checkpointAfter? l (index + 1) with
    | none =>
      let (o, a) := run stop? (index + 1) next
      (o.addToken l, a)
    | some p =>
      match stop? p with
      | some a => ({ tokens := [l], checkpoints := [p] }, some a)
      | none =>
        let (o, a) := run stop? (index + 1) next
        ((o.addCheckpoint p).addToken l, a)
termination_by lx.weight
decreasing_by
  all_goals
    have := lx.step_weight_lt
    rw [_h] at this
    exact this nofun

end Lexer

def tokenize (source : List Char) (config : Config) : Output :=
  let lx := Lexer.ofSource source config
  let o := (lx.run (fun _ => (none : Option Unit)) 0).1
  { o with checkpoints := (lx.checkpoint? 0).toList ++ o.checkpoints }

end Offside
