import Offside.Lex.Document
import Offside.Proofs.Resume

/-!
# Everything a lexer reads

`strides` are all strides from a spot to the end, and `Output.ofStrides` is the output they give
from some offset and token number on. Both are free of the source and of offsets, so strides that
follow one another give outputs that follow one another (`ofStrides_append`), and moving a text
moves its output (`ofStrides_move`). A run of a lexer is the output of the strides it takes
(`At.run`), and so is `tokenize` (`tokenize_eq`).
-/

namespace Offside

/-! ## Strides that follow one another -/

def strides (cfg : Config) (a : Spot) : List (Piece Sign) :=
  if _h : (stride cfg a).sign = .done then [] else stride cfg a :: strides cfg (stride cfg a).next
termination_by Scan.weight a.state a.rest
decreasing_by exact stride_weight_lt cfg a _h

theorem strides_of_done {cfg : Config} {a : Spot} (h : (stride cfg a).sign = .done) :
    strides cfg a = [] := by
  rw [strides, dif_pos h]

theorem strides_of_ne_done {cfg : Config} {a : Spot} (h : (stride cfg a).sign ≠ .done) :
    strides cfg a = stride cfg a :: strides cfg (stride cfg a).next := by
  rw [strides, dif_neg h]

section
variable {cfg : Config} {a b : Spot} {v w : List Char}

theorem strides_of_produced {k : Kind} (h : Scan.reading cfg cfg.kinds a = ⟨.produced k, v, w, b⟩) :
    strides cfg a = ⟨.token (.scanned k), v, w, b⟩ :: strides cfg b := by
  have hs := stride_of_produced (a := a) (congrArg Piece.sign h)
  rw [h] at hs
  rw [strides_of_ne_done (by rw [hs]; nofun), hs]

theorem strides_of_refused {e : Stack.Error} (h : Scan.reading cfg cfg.kinds a = ⟨.refused e, v, w, b⟩) :
    strides cfg a = ⟨.refused e, v, w, b⟩ :: strides cfg b := by
  have hs := stride_of_refused (a := a) (congrArg Piece.sign h)
  rw [h] at hs
  rw [strides_of_ne_done (by rw [hs]; nofun), hs]

/-- What is passed over in front of a stride belongs to the stride. -/
theorem strides_of_passed (h : Scan.reading cfg cfg.kinds a = ⟨.nothing, v, w, b⟩) (hw : v ++ w ≠ []) :
    strides cfg a = (strides cfg b).modifyHead (Piece.prepend (v ++ w)) := by
  have hs := stride_of_passed (a := a) (congrArg Piece.sign h) (by rw [h]; exact hw)
  rw [h] at hs
  by_cases hd : (stride cfg b).sign = .done
  · rw [strides_of_done hd, strides_of_done (by rw [hs]; exact hd)]
    rfl
  · rw [strides_of_ne_done hd, strides_of_ne_done (by rw [hs]; exact hd), hs]
    rfl

theorem strides_of_content {t : Content.Taken} (h : Scan.reading cfg cfg.kinds a = ⟨.nothing, [], [], b⟩)
    (ht : Content.lexOne a.rest = some t) :
    strides cfg a =
      ⟨.token (.content t.kind), [], t.lexeme, ⟨b.state, t.rest⟩⟩ :: strides cfg ⟨b.state, t.rest⟩ := by
  have hs := stride_of_content (a := a) (congrArg Piece.sign h) (by rw [h]; rfl) ht
  rw [h] at hs
  rw [strides_of_ne_done (by rw [hs]; nofun), hs]

theorem strides_of_end (h : Scan.reading cfg cfg.kinds a = ⟨.nothing, [], [], b⟩) (hr : a.rest = []) :
    strides cfg a = [] := by
  have ht : Content.lexOne a.rest = none := Content.lexOne_eq_none_iff.mpr hr
  have hs := stride_of_end (a := a) (congrArg Piece.sign h) (by rw [h]; rfl) ht
  exact strides_of_done (by rw [hs])

end

inductive Leads (cfg : Config) : Spot → List (Piece Sign) → Spot → Prop
  | refl (a : Spot) : Leads cfg a [] a
  | step {a b : Spot} {ms : List (Piece Sign)} : (stride cfg a).sign ≠ .done →
      Leads cfg (stride cfg a).next ms b → Leads cfg a (stride cfg a :: ms) b

def textOf (ms : List (Piece Sign)) : List Char := ms.flatMap Piece.whole

@[simp] theorem textOf_nil : textOf [] = [] := rfl

@[simp] theorem textOf_cons (m : Piece Sign) (ms : List (Piece Sign)) :
    textOf (m :: ms) = m.whole ++ textOf ms := List.flatMap_cons

@[simp] theorem textOf_append (ms ns : List (Piece Sign)) : textOf (ms ++ ns) = textOf ms ++ textOf ns :=
  List.flatMap_append

section
variable {cfg : Config} {a b : Spot} {ms : List (Piece Sign)}

theorem Leads.strides_eq (h : Leads cfg a ms b) : strides cfg a = ms ++ strides cfg b := by
  induction h with
  | refl => rfl
  | step hd _ ih => rw [strides_of_ne_done hd, ih]; rfl

theorem Leads.split (h : Leads cfg a ms b) : a.rest = textOf ms ++ b.rest := by
  induction h with
  | refl => rfl
  | @step a b ms _ _ ih => rw [textOf_cons, List.append_assoc, ← ih, ← stride_split]

theorem Leads.sound (h : Leads cfg a ms b) (s : a.state.Sound cfg) : b.state.Sound cfg := by
  induction h with
  | refl => exact s
  | step _ _ ih => exact ih (sound_stride s)

theorem Lexer.At.along {o : Nat} {lx : Lexer} (hat : lx.At cfg o a) (h : Leads cfg a ms b) :
    (lx.after ms.length).At cfg (o + byteLength (textOf ms)) b := by
  induction h generalizing o lx with
  | refl => exact hat
  | step _ _ ih =>
    rw [textOf_cons, byteLength_append, ← Nat.add_assoc]
    exact ih hat.step.2

theorem leads_of_strides_eq : ∀ {ms : List (Piece Sign)} {a : Spot} {ns : List (Piece Sign)},
    strides cfg a = ms ++ ns → ∃ b, Leads cfg a ms b ∧ strides cfg b = ns
  | [], a, _, h => ⟨a, .refl a, h⟩
  | m :: ms, a, ns, h => by
    by_cases hd : (stride cfg a).sign = .done
    · rw [strides_of_done hd] at h; cases h
    · rw [strides_of_ne_done hd, List.cons_append] at h
      obtain ⟨rfl, htail⟩ := List.cons.inj h
      obtain ⟨b, hb, hn⟩ := leads_of_strides_eq htail
      exact ⟨b, .step hd hb, hn⟩

end

/-! ## What strides give -/

/-- A line break that takes a terminator. -/
def Piece.endsLine (m : Piece Sign) : Bool := m.sign == .token (.scanned .lineBreak) && !m.text.isEmpty

def Lexeme.endsLine (l : Lexeme) : Bool := l.token.isLineBreak && !l.span.isEmpty

theorem isEmpty_span (o : Nat) (m : Piece Sign) :
    (Span.mk (o + byteLength m.before) (o + byteLength m.whole)).isEmpty = m.text.isEmpty := by
  simp only [Span.isEmpty, Piece.whole, byteLength_append]
  rw [Bool.eq_iff_iff, decide_eq_true_iff, List.isEmpty_iff, ← byteLength_eq_zero_iff]
  omega

theorem endsLine_lexeme {m : Piece Sign} {t : Token} (h : m.sign = .token t) (o : Nat) :
    Lexeme.endsLine ⟨t, o + byteLength m.before, o + byteLength m.whole⟩ = m.endsLine := by
  rw [Lexeme.endsLine, Piece.endsLine, h, isEmpty_span]
  cases t with
  | scanned k => cases k <;> rfl
  | content c => rfl

theorem Lexeme.endsLine_iff {l : Lexeme} :
    l.endsLine = true ↔ l.token = .scanned .lineBreak ∧ l.span.start < l.span.stop := by
  simp [endsLine, Token.isLineBreak, Span.isEmpty]

def Piece.isToken (m : Piece Sign) : Bool :=
  match m.sign with
  | .token _ => true
  | _ => false

def tokenCount (ms : List (Piece Sign)) : Nat := ms.countP Piece.isToken

theorem tokenCount_append (ms ns : List (Piece Sign)) :
    tokenCount (ms ++ ns) = tokenCount ms + tokenCount ns := List.countP_append

theorem tokenCount_cons (m : Piece Sign) (ms : List (Piece Sign)) :
    tokenCount (m :: ms) = tokenCount [m] + tokenCount ms := tokenCount_append [m] ms

namespace Output

def ofStride (o i : Nat) (m : Piece Sign) : Output :=
  match m.sign with
  | .token t =>
    { tokens := [⟨t, o + byteLength m.before, o + byteLength m.whole⟩]
      checkpoints :=
        if m.endsLine && m.next.state.stack.size ≤ Snapshot.maxLevels then
          [⟨o + byteLength m.whole, i + 1, Snapshot.encode m.next.state⟩]
        else [] }
  | .refused e => { diagnostics := [⟨o + byteLength m.before, e⟩] }
  | .done => {}

def ofStrides (o i : Nat) : List (Piece Sign) → Output
  | [] => {}
  | m :: ms => (ofStride o i m).append (ofStrides (o + byteLength m.whole) (i + tokenCount [m]) ms)

theorem append_empty (o : Output) : o.append {} = o := by simp [append]

theorem empty_append (o : Output) : append {} o = o := by simp [append]

theorem append_assoc (a b c : Output) : (a.append b).append c = a.append (b.append c) := by
  simp [append]

theorem ofStrides_append : ∀ (ms ns : List (Piece Sign)) (o i : Nat),
    ofStrides o i (ms ++ ns) =
      (ofStrides o i ms).append (ofStrides (o + byteLength (textOf ms)) (i + tokenCount ms) ns)
  | [], ns, o, i => by simp [ofStrides, empty_append, tokenCount]
  | m :: ms, ns, o, i => by
    rw [List.cons_append, ofStrides, ofStrides_append ms ns, ofStrides, append_assoc, textOf_cons,
      byteLength_append, tokenCount_cons m ms, Nat.add_assoc, Nat.add_assoc]

theorem ofStrides_singleton (o i : Nat) (m : Piece Sign) : ofStrides o i [m] = ofStride o i m :=
  append_empty _

def moveBy (d e : Nat) (o : Output) : Output where
  tokens := o.tokens.map (·.shift (· + d))
  diagnostics := o.diagnostics.map (·.shift (· + d))
  checkpoints := o.checkpoints.map fun p => { p with offset := p.offset + d, index := p.index + e }

theorem moveBy_append (d e : Nat) (a b : Output) :
    (a.append b).moveBy d e = (a.moveBy d e).append (b.moveBy d e) := by simp [moveBy, append]

theorem ofStride_move (d e o i : Nat) (m : Piece Sign) :
    ofStride (o + d) (i + e) m = (ofStride o i m).moveBy d e := by
  unfold ofStride
  cases m.sign with
  | token t =>
    simp only [moveBy, Lexeme.shift, Span.shift, List.map_cons, List.map_nil, Nat.add_right_comm]
    split <;> simp [Nat.add_right_comm]
  | refused e => simp [moveBy, Diagnostic.shift, Nat.add_right_comm]
  | done => rfl

theorem ofStrides_move (d e : Nat) : ∀ (o i : Nat) (ms : List (Piece Sign)),
    ofStrides (o + d) (i + e) ms = (ofStrides o i ms).moveBy d e
  | _, _, [] => rfl
  | o, i, m :: ms => by
    rw [ofStrides, ofStrides, moveBy_append, ofStride_move, ← ofStrides_move d e,
      Nat.add_right_comm o, Nat.add_right_comm i]

theorem length_tokens_ofStride (o i : Nat) (m : Piece Sign) :
    (ofStride o i m).tokens.length = tokenCount [m] := by
  unfold ofStride tokenCount Piece.isToken
  cases h : m.sign <;> simp [h]

theorem length_tokens_ofStrides : ∀ (o i : Nat) (ms : List (Piece Sign)),
    (ofStrides o i ms).tokens.length = tokenCount ms
  | _, _, [] => rfl
  | o, i, m :: ms => by
    rw [ofStrides, append, List.length_append, length_tokens_ofStride, length_tokens_ofStrides,
      tokenCount_cons m ms]

theorem ofStride_token {o i : Nat} {m : Piece Sign} {t : Token} (h : m.sign = .token t) :
    ofStride o i m =
      { tokens := [⟨t, o + byteLength m.before, o + byteLength m.whole⟩]
        checkpoints := (ofStride o i m).checkpoints } := by
  simp [ofStride, h]

theorem mem_checkpoints_ofStride {o i : Nat} {m : Piece Sign} {p : Checkpoint}
    (h : p ∈ (ofStride o i m).checkpoints) :
    m.endsLine = true ∧ m.next.state.stack.size ≤ Snapshot.maxLevels ∧
      p = ⟨o + byteLength m.whole, i + 1, Snapshot.encode m.next.state⟩ := by
  unfold ofStride at h
  split at h
  · simp only at h
    split at h
    · next he =>
      simp only [Bool.and_eq_true, decide_eq_true_eq] at he
      exact ⟨he.1, he.2, List.mem_singleton.mp h⟩
    · cases h
  · cases h
  · cases h

end Output

/-! ## Runs -/

/-- How a run ends that took the strides `ms` to the spot `b`: at the end of the text, or at the
first checkpoint where `stop?` has an answer. -/
def Halts {α : Type} (cfg : Config) (stop? : Checkpoint → Option α) (o i : Nat) (ms : List (Piece Sign))
    (b : Spot) : Option α → Prop
  | none => strides cfg b = [] ∧ ∀ p ∈ (Output.ofStrides o i ms).checkpoints, stop? p = none
  | some x => b.state.stack.size ≤ Snapshot.maxLevels ∧
    ∃ ps p, (Output.ofStrides o i ms).checkpoints = ps ++ [p] ∧ (∀ q ∈ ps, stop? q = none) ∧
      stop? p = some x ∧
      p = ⟨o + byteLength (textOf ms), i + tokenCount ms, Snapshot.encode b.state⟩

theorem tokenCount_token {m : Piece Sign} {t : Token} (h : m.sign = .token t) : tokenCount [m] = 1 := by
  simp [tokenCount, Piece.isToken, h]

theorem tokenCount_refused {m : Piece Sign} {e : Stack.Error} (h : m.sign = .refused e) :
    tokenCount [m] = 0 := by
  simp [tokenCount, Piece.isToken, h]

theorem sign_of_event_done {m : Piece Sign} {o : Nat} (h : m.event o = .done) : m.sign = .done := by
  unfold Piece.event at h; split at h
  · cases h
  · cases h
  · assumption

theorem sign_of_event_refused {m : Piece Sign} {o : Nat} {d : Diagnostic} (h : m.event o = .refused d) :
    ∃ e, m.sign = .refused e ∧ d = ⟨o + byteLength m.before, e⟩ := by
  unfold Piece.event at h; split at h
  · cases h
  · next e hs => cases h; exact ⟨e, hs, rfl⟩
  · cases h

theorem sign_of_event_token {m : Piece Sign} {o : Nat} {l : Lexeme} (h : m.event o = .token l) :
    ∃ t, m.sign = .token t ∧ l = ⟨t, o + byteLength m.before, o + byteLength m.whole⟩ := by
  unfold Piece.event at h; split at h
  · next t hs => cases h; exact ⟨t, hs, rfl⟩
  · cases h
  · cases h

section
variable {α : Type} {cfg : Config} {f : Checkpoint → Option α} {o i : Nat} {a b : Spot}

theorem halts_cons {ms : List (Piece Sign)} {x : Option α} {m : Piece Sign}
    (h : Halts cfg f (o + byteLength m.whole) (i + tokenCount [m]) ms b x)
    (hm : ∀ p ∈ (Output.ofStride o i m).checkpoints, f p = none) :
    Halts cfg f o i (m :: ms) b x := by
  have cps : (Output.ofStrides o i (m :: ms)).checkpoints = (Output.ofStride o i m).checkpoints ++
      (Output.ofStrides (o + byteLength m.whole) (i + tokenCount [m]) ms).checkpoints := rfl
  cases x with
  | none =>
    refine ⟨h.1, fun p hp => ?_⟩
    rw [cps, List.mem_append] at hp
    exact hp.elim (hm p) (h.2 p)
  | some x =>
    obtain ⟨small, ps, p, hps, none, ans, hp⟩ := h
    refine ⟨small, (Output.ofStride o i m).checkpoints ++ ps, p, ?_, fun q hq => ?_, ans, ?_⟩
    · rw [cps, hps, List.append_assoc]
    · exact (List.mem_append.mp hq).elim (hm q) (none q)
    · rw [hp, textOf_cons, byteLength_append, tokenCount_cons m ms, Nat.add_assoc, Nat.add_assoc]

def RunsTo (cfg : Config) (f : Checkpoint → Option α) (o i : Nat) (a : Spot) (r : Output × Option α) : Prop :=
  ∃ ms b, Leads cfg a ms b ∧ r.1 = Output.ofStrides o i ms ∧ Halts cfg f o i ms b r.2

theorem RunsTo.cons {r : Output × Option α} (hd : (stride cfg a).sign ≠ .done)
    (h : RunsTo cfg f (o + byteLength (stride cfg a).whole) (i + tokenCount [stride cfg a])
      (stride cfg a).next r)
    (hm : ∀ p ∈ (Output.ofStride o i (stride cfg a)).checkpoints, f p = none) :
    RunsTo cfg f o i a ((Output.ofStride o i (stride cfg a)).append r.1, r.2) := by
  obtain ⟨ms, b, leads, hout, halts⟩ := h
  exact ⟨stride cfg a :: ms, b, .step hd leads, by rw [hout, Output.ofStrides], halts_cons halts hm⟩

namespace Lexer

theorem At.checkpointAfter? {lx : Lexer} {m : Piece Sign} {t : Token} (hs : m.sign = .token t)
    (hat : lx.At cfg (o + byteLength m.whole) m.next) :
    (lx.checkpointAfter? ⟨t, o + byteLength m.before, o + byteLength m.whole⟩ (i + 1)).toList =
      (Output.ofStride o i m).checkpoints := by
  have ends := endsLine_lexeme hs o
  rw [Lexeme.endsLine] at ends
  simp only [Lexer.checkpointAfter?, ends, Output.ofStride, hs, checkpoint?, hat.state, hat.eq.2.1]
  by_cases he : m.endsLine = true
  · by_cases small : m.next.state.stack.size ≤ Snapshot.maxLevels
    · simp [he, small, Nat.not_lt.mpr small]
    · simp [small, Nat.lt_of_not_le small]
  · simp [he]

theorem At.next {lx next : Lexer} {e : Event} (hat : lx.At cfg o a) (h : lx.step = (e, next)) :
    (stride cfg a).event o = e ∧ next.At cfg (o + byteLength (stride cfg a).whole) (stride cfg a).next := by
  have := hat.step
  rw [h] at this
  exact ⟨this.1.symm, this.2⟩

/-- A run takes strides, gives their output, and halts where it should. -/
theorem At.run {lx : Lexer} (hat : lx.At cfg o a) : RunsTo cfg f o i a (lx.run f i) := by
  fun_induction Lexer.run f i lx generalizing o a with
  | case1 i lx next h =>
    have done := sign_of_event_done (hat.next h).1
    exact ⟨[], a, .refl a, rfl, strides_of_done done, nofun⟩
  | case2 i lx d next h out x hrun ih =>
    obtain ⟨hev, hnext⟩ := hat.next h
    obtain ⟨e, hs, rfl⟩ := sign_of_event_refused hev
    have rest := ih hnext
    rw [hrun] at rest
    have all := RunsTo.cons (i := i) (by rw [hs]; nofun) (by rw [tokenCount_refused hs]; exact rest)
      (by rw [Output.ofStride, hs]; nofun)
    rw [Output.ofStride, hs] at all
    exact all
  | case3 i lx l next h hcp out x hrun ih =>
    obtain ⟨hev, hnext⟩ := hat.next h
    obtain ⟨t, hs, rfl⟩ := sign_of_event_token hev
    have cps := hnext.checkpointAfter? (i := i) hs
    rw [hcp] at cps
    have rest := ih hnext
    rw [hrun] at rest
    have all := RunsTo.cons (by rw [hs]; nofun) (by rw [tokenCount_token hs]; exact rest)
      (by rw [← cps]; nofun)
    rw [Output.ofStride_token hs, ← cps] at all
    exact all
  | case4 i lx l next h p hcp x hx =>
    obtain ⟨hev, hnext⟩ := hat.next h
    obtain ⟨t, hs, rfl⟩ := sign_of_event_token hev
    have cps := hnext.checkpointAfter? (i := i) hs
    rw [hcp] at cps
    refine ⟨[stride cfg a], _, .step (by rw [hs]; nofun) (.refl _), ?_, ?_⟩
    · rw [Output.ofStrides_singleton, Output.ofStride_token hs, ← cps]
      rfl
    · have cps : (Output.ofStrides o i [stride cfg a]).checkpoints = [p] := by
        rw [Output.ofStrides_singleton]; exact cps.symm
      obtain ⟨-, small, hp⟩ := Output.mem_checkpoints_ofStride (o := o) (i := i)
        (by rw [← Output.ofStrides_singleton, cps]; exact List.mem_singleton_self p)
      refine ⟨small, [], p, cps, nofun, hx, ?_⟩
      rw [hp, tokenCount_token hs, textOf_cons, textOf_nil, List.append_nil]
  | case5 i lx l next h p hcp hx out x hrun ih =>
    obtain ⟨hev, hnext⟩ := hat.next h
    obtain ⟨t, hs, rfl⟩ := sign_of_event_token hev
    have cps := hnext.checkpointAfter? (i := i) hs
    rw [hcp] at cps
    have rest := ih hnext
    rw [hrun] at rest
    have all := RunsTo.cons (by rw [hs]; nofun) (by rw [tokenCount_token hs]; exact rest) (by
      rw [← cps]
      intro q hq
      rw [List.mem_singleton.mp hq]; exact hx)
    rw [Output.ofStride_token hs, ← cps] at all
    exact all

theorem At.run_to_end {lx : Lexer} (hat : lx.At cfg o a) :
    (lx.run (fun _ => (none : Option α)) i).1 = Output.ofStrides o i (strides cfg a) := by
  obtain ⟨ms, b, leads, hout, halts⟩ := hat.run (f := fun _ => (none : Option α)) (i := i)
  cases hx : (lx.run (fun _ => (none : Option α)) i).2 with
  | none =>
    rw [hx] at halts
    rw [hout, leads.strides_eq, halts.1, List.append_nil]
  | some x =>
    rw [hx] at halts
    obtain ⟨_, _, _, _, _, h, _⟩ := halts
    cases h

end Lexer

end

def Spot.start (cfg : Config) (source : List Char) : Spot := ⟨.initial cfg.maxDepth, source⟩

def Output.opening (cfg : Config) : Output :=
  { checkpoints := [⟨0, 0, Snapshot.encode (.initial cfg.maxDepth)⟩] }

theorem tokenize_eq (source : List Char) (cfg : Config) :
    tokenize source cfg =
      (Output.opening cfg).append (Output.ofStrides 0 0 (strides cfg (.start cfg source))) := by
  have hat := Lexer.at_ofSource source cfg
  unfold tokenize
  simp only [hat.run_to_end]
  have small : (Lexer.ofSource source cfg).state.stack.size ≤ Snapshot.maxLevels := by
    show 1 ≤ 255; decide
  rw [Lexer.checkpoint?_eq_some_iff.mpr ⟨small, rfl⟩]
  rw [show (Lexer.ofSource source cfg).position = 0 from hat.eq.2.1, hat.state]
  simp [Output.append, Output.opening, Spot.start]

end Offside
