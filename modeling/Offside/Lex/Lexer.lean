import Offside.Lex.Output
import Offside.Scan.Weight

/-!
# Lexing step by step

A lexer asks the scanner first and takes a content token where the scanner has nothing. Input that
the scanner passes over without a token is insignificant, and it is asked again behind it. Each
token and each refusal lowers the lexer's weight (`step_weight_lt`), so every lexer gets done.
-/

namespace Offside

structure Lexer where
  config : Config
  state : State
  cursor : Cursor
  finished : Bool := false
deriving DecidableEq, Repr

inductive Event where
  | token (lexeme : Lexeme)
  | refused (diagnostic : Diagnostic)
  | done
deriving DecidableEq, Repr

namespace Lexer

def ofSource (source : List Char) (config : Config) : Lexer :=
  ⟨config, .initial config.maxDepth, .ofSource source, false⟩

/-- At an offset, in the state that a snapshot stands for. -/
def resume (source : List Char) (config : Config) (offset : Nat) (snapshot : List UInt8) : Lexer :=
  ⟨config, Snapshot.restore config.maxDepth snapshot, .atOffset source offset, false⟩

def position (lx : Lexer) : Nat := lx.cursor.position

/-- A place to take up lexing again, unless there are more levels than a snapshot holds. -/
def checkpoint? (index : Nat) (lx : Lexer) : Option Checkpoint :=
  if Snapshot.maxLevels < lx.state.stack.size then none
  else some ⟨lx.position, index, Snapshot.encode lx.state⟩

def step (lx : Lexer) : Event × Lexer :=
  if lx.finished then (.done, lx)
  else
    let c := lx.cursor.begin
    match _h : tryScan lx.config lx.config.kinds lx.state c with
    | ⟨.produced kind, state, d⟩ =>
      (.token ⟨.scanned kind, d.tokenStart, d.stop.offset⟩, { lx with state, cursor := d.close })
    | ⟨.refused why, state, d⟩ => (.refused ⟨c.position, why⟩, { lx with state, cursor := d })
    | ⟨.nothing, state, d⟩ =>
      if d.position ≠ c.position then step { lx with state, cursor := d }
      else
        match Content.lexOne c.rest with
        | some t =>
          let p := c.here.past t.lexeme t.rest
          (.token ⟨.content t.kind, c.position, p.offset⟩, { lx with state, cursor := c.jump p })
        | none => (.done, { lx with state, cursor := d, finished := true })
termination_by lx.cursor.rest.length
decreasing_by
  have := tryScan_reaches lx.config lx.config.kinds lx.state c
  rw [_h] at this
  exact this.length_lt ‹_›

/-! ## Steps and weight -/

def weight (lx : Lexer) : Nat := Scan.weight lx.state lx.cursor.rest

/-- A token or a refusal takes the lexer closer to its end. -/
theorem step_weight_lt (lx : Lexer) : lx.step.1 ≠ .done → lx.step.2.weight < lx.weight := by
  fun_induction step lx with
  | case1 lx h => simp
  | case2 lx hf c kind state d h =>
    intro _
    have := Scan.lowers_tryScan lx.config lx.state lx.cursor.begin
    rw [h] at this; exact this
  | case3 lx hf c why state d h =>
    intro _
    have := Scan.lowers_tryScan lx.config lx.state lx.cursor.begin
    rw [h] at this; exact this
  | case4 lx hf c state d h hm ih =>
    intro ne
    have := Scan.lowers_tryScan lx.config lx.state lx.cursor.begin
    rw [h] at this
    exact Nat.lt_of_lt_of_le (ih ne) this
  | case5 lx hf c state d h hm t ht p =>
    intro _
    have lowers := Scan.lowers_tryScan lx.config lx.state lx.cursor.begin
    have reaches := tryScan_reaches lx.config lx.config.kinds lx.state lx.cursor.begin
    rw [h] at lowers reaches
    have same : d.rest = lx.cursor.rest :=
      congrArg Point.rest (reaches.eq_of_offset (Decidable.not_not.1 hm))
    refine Nat.lt_of_lt_of_le ?_ lowers
    rw [same]
    exact Scan.weight_lt_of_length_lt (Content.lexOne_length_lt ht) (Nat.le_refl _) id
  | case6 lx hf c state d h hm ht => simp

theorem step_of_finished {lx : Lexer} (h : lx.finished = true) : lx.step = (.done, lx) := by
  rw [step, if_pos h]

end Lexer

end Offside
