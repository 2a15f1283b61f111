import Offside.Proofs.Flush
import Offside.Proofs.Locality

/-!
# Lexing comes to an end

A step asks the scanner again only behind input that was passed over, so it asks no more often than
once for each character ahead and once more (`stepWithin_eq`). A stride takes something off the
weight of where it starts, so the weight bounds the number of strides to the end
(`length_strides_le`), and a lexer is done after that many steps and ever after (`At.doneAfter`).
Wherever a lexer starts and in whatever state, what it gives is linear in the text ahead and the
levels that are open (`doneAfter_resume`).
-/

namespace Offside

namespace Lexer

/-! ## The rounds of a step -/

/-- One round of a step: the scanner is asked once. There is no event if it passes over input. -/
def ask (lx : Lexer) : Option Event × Lexer :=
  if lx.finished then (some .done, lx)
  else
    let c := lx.cursor.begin
    match tryScan lx.config lx.config.kinds lx.state c with
    | ⟨.produced kind, state, d⟩ =>
      (some (.token ⟨.scanned kind, d.tokenStart, d.stop.offset⟩), { lx with state, cursor := d.close })
    | ⟨.refused why, state, d⟩ => (some (.refused ⟨c.position, why⟩), { lx with state, cursor := d })
    | ⟨.nothing, state, d⟩ =>
      if d.position ≠ c.position then (none, { lx with state, cursor := d })
      else
        match Content.lexOne c.rest with
        | some t =>
          let p := c.here.past t.lexeme t.rest
          (some (.token ⟨.content t.kind, c.position, p.offset⟩), { lx with state, cursor := c.jump p })
        | none => (some .done, { lx with state, cursor := d, finished := true })

def stepWithin : Nat → Lexer → Option (Event × Lexer)
  | 0, _ => none
  | n + 1, lx =>
    match lx.ask with
    | (some e, next) => some (e, next)
    | (none, next) => stepWithin n next

theorem step_eq_ask (lx : Lexer) : lx.step =
    match lx.ask with
    | (some e, next) => (e, next)
    | (none, next) => next.step := by
  fun_cases ask lx with
  | case1 hf => exact step_of_finished hf
  | case2 | case3 | case4 | case5 | case6 => rw [step]; grind

theorem length_lt_of_ask {lx next : Lexer} : lx.ask = (none, next) →
    next.cursor.rest.length < lx.cursor.rest.length := by
  fun_cases ask lx with
  | case4 hf c state d hs moved =>
    intro h
    cases h
    have reaches := tryScan_reaches lx.config lx.config.kinds lx.state c
    rw [hs] at reaches
    exact reaches.length_lt moved
  | case1 | case2 | case3 | case5 | case6 => intro h; cases h

theorem stepWithin_eq : ∀ {n : Nat} {lx : Lexer}, lx.cursor.rest.length < n →
    lx.stepWithin n = some lx.step
  | 0, _, h => absurd h (Nat.not_lt_zero _)
  | n + 1, lx, h => by
    rw [stepWithin, step_eq_ask]
    cases hask : lx.ask with
    | mk e next =>
      cases e with
      | some e => rfl
      | none =>
        have shorter := length_lt_of_ask hask
        exact stepWithin_eq (by omega)

end Lexer

/-! ## How many strides there are -/

theorem Scan.weight_le_linear (s : State) (r : List Char) :
    weight s r ≤ 2 * r.length + s.stack.opened.length + 1 := by
  unfold weight
  split <;> split <;> omega

section
variable {cfg : Config} {a b : Spot} {ms : List (Piece Sign)}

theorem length_strides_le (cfg : Config) (a : Spot) :
    (strides cfg a).length ≤ Scan.weight a.state a.rest := by
  fun_induction strides cfg a with
  | case1 a done => exact Nat.zero_le _
  | case2 a more ih => exact Nat.lt_of_le_of_lt ih (stride_weight_lt cfg a more)

theorem length_strides_linear (cfg : Config) (a : Spot) :
    (strides cfg a).length ≤ 2 * byteLength a.rest + a.state.stack.opened.length + 1 := by
  have weight := Scan.weight_le_linear a.state a.rest
  have chars := length_le_byteLength a.rest
  have strides := length_strides_le cfg a
  omega

theorem length_strides_next (cfg : Config) (a : Spot) :
    (strides cfg (stride cfg a).next).length = (strides cfg a).length - 1 := by
  by_cases done : (stride cfg a).sign = .done
  · have again : (stride cfg (stride cfg a).next).sign = .done := by
      rw [(stride_of_done a done).2]
    rw [strides_of_done done, strides_of_done again]
    rfl
  · rw [strides_of_ne_done done, List.length_cons, Nat.add_sub_cancel]

theorem event_eq_done_iff {o : Nat} {m : Piece Sign} : m.event o = .done ↔ m.sign = .done := by
  constructor
  · exact sign_of_event_done
  · intro h
    rw [Piece.event, h]

theorem Leads.length_ofStrides (h : Leads cfg a ms b) (o i : Nat) :
    (Output.ofStrides o i ms).tokens.length + (Output.ofStrides o i ms).diagnostics.length =
      ms.length := by
  induction h generalizing o i with
  | refl => rfl
  | @step a b ms more _ ih =>
    have one : (Output.ofStride o i (stride cfg a)).tokens.length +
        (Output.ofStride o i (stride cfg a)).diagnostics.length = 1 := by
      unfold Output.ofStride
      cases hs : (stride cfg a).sign with
      | token t => rfl
      | refused e => rfl
      | done => exact absurd hs more
    have behind := ih (o + byteLength (stride cfg a).whole) (i + tokenCount [stride cfg a])
    simp only [Output.ofStrides, Output.append, List.length_append, List.length_cons]
    omega

end

theorem length_tokenize (source : List Char) (cfg : Config) :
    (tokenize source cfg).tokens.length + (tokenize source cfg).diagnostics.length =
      (strides cfg (.start cfg source)).length := by
  obtain ⟨b, leads⟩ := leads_strides cfg (.start cfg source)
  rw [tokenize_eq]
  exact leads.length_ofStrides 0 0

/-! ## When a lexer is done -/

namespace Lexer

def DoneAfter (n : Nat) (lx : Lexer) : Prop := ∀ m, (lx.after m).step.1 = .done ↔ n ≤ m

section
variable {cfg : Config} {o : Nat} {a : Spot} {lx : Lexer}

theorem At.doneAfter (h : lx.At cfg o a) : lx.DoneAfter (strides cfg a).length := by
  intro m
  induction m generalizing lx o a with
  | zero =>
    rw [Lexer.after, h.step.1, event_eq_done_iff, Nat.le_zero, List.length_eq_zero_iff]
    constructor
    · exact strides_of_done
    · intro none
      by_cases done : (stride cfg a).sign = .done
      · exact done
      · rw [strides_of_ne_done done] at none
        cases none
  | succ m ih =>
    rw [Lexer.after, ih h.step.2, length_strides_next]
    omega

theorem At.length_rest_after (h : lx.At cfg o a) : ∀ m : Nat,
    (lx.after m).cursor.rest.length ≤ a.rest.length := by
  intro m
  induction m generalizing lx o a with
  | zero =>
    have rest : lx.cursor.rest = a.rest := congrArg Point.rest h.here
    exact Nat.le_of_eq (congrArg List.length rest)
  | succ m ih =>
    have behind := ih h.step.2
    have split := congrArg List.length (stride_split cfg a)
    rw [List.length_append] at split
    rw [Lexer.after]
    omega

end

theorem position_add_rest (source : List Char) (cfg : Config) (offset : Nat) (snapshot : List UInt8) :
    (resume source cfg offset snapshot).position +
      byteLength (resume source cfg offset snapshot).cursor.rest = byteLength source := by
  obtain ⟨w, split, before⟩ := Point.seek_reaches offset 0 source
  have whole := congrArg byteLength split
  rw [byteLength_append] at whole
  rw [Nat.zero_add] at before
  rw [← before] at whole
  exact whole.symm

/-- Wherever a lexer is started, with whatever bytes for a snapshot: a step of it asks the scanner
once for each byte ahead at most, and once more. It gives two events for each byte ahead at most, one
for each open level, and one more, and then it is done and stays done. From the start of a source
these events are the tokens and diagnostics of the source, two for each byte at most and one more. -/
theorem doneAfter_resume (source : List Char) (cfg : Config) (offset : Nat) (snapshot : List UInt8) :
    let lx := resume source cfg offset snapshot
    lx.position ≤ byteLength source ∧
    (∀ m, (lx.after m).stepWithin (byteLength source - lx.position + 1) = some (lx.after m).step) ∧
    (∃ n, lx.DoneAfter n ∧
      n ≤ 2 * (byteLength source - lx.position) + lx.state.stack.opened.length + 1) ∧
    (ofSource source cfg).DoneAfter
      ((tokenize source cfg).tokens.length + (tokenize source cfg).diagnostics.length) ∧
    (tokenize source cfg).tokens.length + (tokenize source cfg).diagnostics.length ≤
      2 * byteLength source + 1 := by
  intro lx
  have whole : lx.position + byteLength lx.cursor.rest = byteLength source :=
    position_add_rest source cfg offset snapshot
  have rest : byteLength source - lx.position = byteLength lx.cursor.rest := by omega
  have hat : lx.At cfg lx.position ⟨lx.state, lx.cursor.rest⟩ :=
    at_resume_anywhere source cfg offset snapshot
  refine ⟨by omega, ?_, ?_, ?_, ?_⟩
  · intro m
    have chars := length_le_byteLength lx.cursor.rest
    have shorter : (lx.after m).cursor.rest.length ≤ lx.cursor.rest.length := hat.length_rest_after m
    rw [rest]
    apply stepWithin_eq
    omega
  · refine ⟨_, hat.doneAfter, ?_⟩
    rw [rest]
    exact length_strides_linear cfg _
  · rw [length_tokenize]
    exact (at_ofSource source cfg).doneAfter
  · rw [length_tokenize]
    exact length_strides_linear cfg (.start cfg source)

end Lexer

end Offside
