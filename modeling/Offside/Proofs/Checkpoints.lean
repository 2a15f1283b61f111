import Offside.Proofs.CheckedEdit
import Offside.Proofs.Discipline
import Offside.Proofs.LineFlags

/-!
# Where checkpoints stand

The strides up to a line start leave a scanner that is at the start of a line and has not met the end
of the text (`Leads.flags`), with as many levels open as they have opened and not ended
(`Leads.opened`). A checkpoint stands there unless more levels are open than a snapshot holds
(`exists_checkpoint_iff`), and nowhere else. So the checkpoints of a source are its line starts, in
order, each with the state a lexer is in there (`checkpoints_tokenize`).
-/

namespace Offside

def IsLineStart (source : List Char) (n : Nat) : Prop :=
  n = 0 ∨ ∃ t u, source = t ++ '\n' :: u ∧ n = byteLength t + 1

theorem byteLength_newline (t : List Char) : byteLength (t ++ ['\n']) = byteLength t + 1 := by
  rw [byteLength_append]; rfl

/-! ## Levels along strides -/

section
variable {cfg : Config} {a : Spot}

theorem length_opened_reading {v : Verdict} (h : (Scan.reading cfg cfg.kinds a).sign = v) :
    (Scan.reading cfg cfg.kinds a).next.state.stack.opened.length +
        (if v = .produced .indentClose then 1 else 0) =
      a.state.stack.opened.length + (if v = .produced .indentOpen then 1 else 0) :=
  h ▸ (Scan.opens_reading cfg cfg.kinds a).length

theorem length_opened_stride (cfg : Config) (a : Spot) :
    (stride cfg a).next.state.stack.opened.length +
        (if (stride cfg a).sign = .token (.scanned .indentClose) then 1 else 0) =
      a.state.stack.opened.length +
        (if (stride cfg a).sign = .token (.scanned .indentOpen) then 1 else 0) := by
  fun_induction stride cfg a with
  | case1 a p k hs | case2 a p e hs => simpa using length_opened_reading hs
  | case3 a p hs | case4 a p hs => simpa using length_opened_reading hs
  | case5 a p hs hw ih =>
    have passed := length_opened_reading hs
    simp only [reduceCtorEq, if_false, Nat.add_zero] at passed
    rw [← passed]
    exact ih

end

theorem count_structureOf_ofStride (o i : Nat) (m : Piece Sign) (k : Kind) :
    (structureOf (Output.ofStride o i m).tokens).count k =
      if m.sign = .token (.scanned k) then 1 else 0 := by
  unfold Output.ofStride structureOf
  cases m.sign with
  | token t =>
    cases t with
    | scanned j => simp [Token.kind?, List.count_singleton]
    | content c => simp [Token.kind?]
  | refused e => simp
  | done => simp

section
variable {cfg : Config} {source : List Char} {a b : Spot} {ms : List (Piece Sign)}

theorem Leads.opened (h : Leads cfg a ms b) (o i : Nat) :
    b.state.stack.opened.length + (structureOf (Output.ofStrides o i ms).tokens).count .indentClose =
      a.state.stack.opened.length + (structureOf (Output.ofStrides o i ms).tokens).count .indentOpen := by
  induction h generalizing o i with
  | refl => rfl
  | @step a b ms _ _ ih =>
    have first := length_opened_stride cfg a
    have behind := ih (o + byteLength (stride cfg a).whole) (i + tokenCount [stride cfg a])
    rw [← count_structureOf_ofStride o i, ← count_structureOf_ofStride o i] at first
    simp only [Output.ofStrides, Output.append, structureOf, List.filterMap_append, List.count_append]
      at first behind ⊢
    omega

/-! ## Strides up to a line start -/

theorem Leads.isLineStart (h : Leads cfg (.start cfg source) ms b) (at' : AtLine ms) :
    IsLineStart source (byteLength (textOf ms)) := by
  have split : source = textOf ms ++ b.rest := h.split
  rcases (h.lineStart at').cases with none | ⟨t, some⟩
  · exact .inl (by rw [none]; rfl)
  · rw [some, List.append_assoc] at split
    exact .inr ⟨t, b.rest, split, by rw [some, byteLength_newline]⟩

theorem LineStart.lastLine {t : List Char} (h : LineStart t) : lastLine t = [] := by
  rcases h.cases with rfl | ⟨w, rfl⟩
  · rfl
  · exact lastLine_newline w

theorem Leads.flags (h : Leads cfg (.start cfg source) ms b) (at' : AtLine ms) :
    b.state.atLineStart = true ∧ b.state.finalBreakDone = false := by
  -- the text behind has no part in the state here, so it may as well be another line feed
  obtain ⟨ns, leads, text, -⟩ := h.swap at' ['\n']
  have tracks := leads.tracks (tracks_start cfg (textOf ms ++ ['\n']))
  have done := tracks.unended (by simp)
  refine ⟨Bool.not_eq_false _ ▸ fun under => ?_, done⟩
  obtain ⟨x, hx, -⟩ := tracks.underWay under done
  rw [List.nil_append, text, lineAt, (h.lineStart at').lastLine] at hx
  cases hx

theorem leads_to_newline (cfg : Config) {t u : List Char} (h : source = t ++ '\n' :: u) :
    ∃ ms b, Leads cfg (.start cfg source) ms b ∧ AtLine ms ∧ textOf ms = t ++ ['\n'] := by
  have line : LineStart (t ++ ['\n']) := .inr (by simp)
  obtain ⟨ms, s, at', text, leads⟩ := leads_of_lineStart cfg line (.initial cfg.maxDepth)
  have leads := leads u
  rw [List.append_assoc, List.singleton_append, ← h] at leads
  exact ⟨_, _, leads, at'.map_extend u, by rw [textOf_map_extend, text]⟩

/-! ## Checkpoints and line starts -/

theorem checkpoint_of_leads (h : Leads cfg (.start cfg source) ms b) (at' : AtLine ms)
    (small : b.state.stack.size ≤ Snapshot.maxLevels) :
    ⟨byteLength (textOf ms), tokenCount ms, Snapshot.encode b.state⟩ ∈
      (tokenize source cfg).checkpoints := by
  rw [tokenize_of_leads h]
  refine List.mem_append_left _ ?_
  rcases List.eq_nil_or_concat ms with rfl | ⟨ns, m, rfl⟩
  · rw [← leads_nil_iff.mp h]
    exact List.mem_cons_self
  · rw [List.concat_eq_append] at h at' ⊢
    obtain rfl := h.next_eq
    have ends := atLine_append_singleton.mp at'
    have sign := (endsLine_iff.mp ends).1
    refine List.mem_append_right _ ?_
    rw [Output.ofStrides_append, Output.ofStrides_singleton]
    refine List.mem_append_right _ ?_
    simp [Output.ofStride, sign, ends, small, tokenCount_append, tokenCount_token sign]

theorem exists_checkpoint_iff (h : Leads cfg (.start cfg source) ms b) (at' : AtLine ms) :
    (∃ p ∈ (tokenize source cfg).checkpoints, p.offset = byteLength (textOf ms)) ↔
      b.state.stack.size ≤ Snapshot.maxLevels := by
  constructor
  · rintro ⟨p, hp, e⟩
    obtain ⟨ns, c, leads, atN, small, rfl⟩ := leads_of_checkpoint hp
    obtain ⟨texts, -⟩ := append_inj_of_byteLength (leads.split.symm.trans h.split) e
    obtain ⟨-, rfl⟩ := leads.unique h atN at' texts
    exact small
  · exact fun small => ⟨_, checkpoint_of_leads h at' small, rfl⟩

theorem tokens_before (h : Leads cfg (.start cfg source) ms b) :
    (tokenize source cfg).tokens.take (tokenCount ms) = (Output.ofStrides 0 0 ms).tokens := by
  rw [tokenize_of_leads h]
  exact List.take_left' (cutAt_of_leads h).tokens

def Output.EndsLineAt (o : Output) (p : Checkpoint) : Prop :=
  ∃ l, 0 < p.index ∧ o.tokens[p.index - 1]? = some l ∧ l.token = .scanned .lineBreak ∧
    l.span.start < l.span.stop ∧ l.span.stop = p.offset

theorem Leads.endsLineAt (h : Leads cfg (.start cfg source) ms b) (at' : AtLine ms) (ne : ms ≠ [])
    (snapshot : List UInt8) :
    (tokenize source cfg).EndsLineAt ⟨byteLength (textOf ms), tokenCount ms, snapshot⟩ := by
  have length := Output.length_tokens_ofStrides 0 0 ms
  have pos : 0 < tokenCount ms := by
    obtain ⟨ns, m, rfl⟩ := (List.eq_nil_or_concat ms).resolve_left ne
    rw [List.concat_eq_append] at at' ⊢
    rw [tokenCount_append, tokenCount_token (endsLine_iff.mp (atLine_append_singleton.mp at')).1]
    exact Nat.succ_pos _
  obtain ⟨l, hl⟩ : ∃ l, (Output.ofStrides 0 0 ms).tokens.getLast? = some l := by
    cases last : (Output.ofStrides 0 0 ms).tokens.getLast? with
    | none =>
      rw [List.getLast?_eq_none_iff.mp last] at length
      exact absurd length (Nat.ne_of_lt pos)
    | some l => exact ⟨l, rfl⟩
  obtain ⟨ends, stop⟩ := Output.getLast?_tokens 0 0 at' hl
  obtain ⟨token, text⟩ := Lexeme.endsLine_iff.mp ends
  refine ⟨l, pos, ?_, token, text, by rw [stop, Nat.zero_add]⟩
  rw [List.getLast?_eq_getElem?, length, ← tokens_before h, List.getElem?_take_of_lt (by omega)] at hl
  exact hl

variable {p q : Checkpoint}

theorem endsLineAt_of_mem (hp : p ∈ (tokenize source cfg).checkpoints) :
    p.offset = 0 ∧ p.index = 0 ∨ (tokenize source cfg).EndsLineAt p := by
  obtain ⟨ms, b, leads, at', -, rfl⟩ := leads_of_checkpoint hp
  by_cases none : ms = []
  · subst none
    exact .inl ⟨rfl, rfl⟩
  · exact .inr (leads.endsLineAt at' none _)

theorem offset_pos_of_mem_tail (hp : p ∈ (tokenize source cfg).checkpoints.tail) : 0 < p.offset := by
  have ordered := Output.ordered_tokenize source cfg
  rw [tokenize_eq] at hp ordered
  exact (List.pairwise_cons.mp ordered).1 p hp

theorem index_lt (hp : p ∈ (tokenize source cfg).checkpoints) (hq : q ∈ (tokenize source cfg).checkpoints)
    (lt : p.offset < q.offset) : p.index < q.index := by
  apply Nat.lt_of_le_of_ne ((Output.inOrder_tokenize source cfg).indices p hp q hq lt)
  intro same
  rcases endsLineAt_of_mem hq with first | ⟨l, pos, hl, -, -, stop⟩
  · omega
  rcases endsLineAt_of_mem hp with first | ⟨l', -, hl', -, -, stop'⟩
  · omega
  · -- one token would end at two places
    rw [same, hl] at hl'
    cases hl'
    omega

theorem decode?_checkpoint (hp : p ∈ (tokenize source cfg).checkpoints) :
    ∃ s, Snapshot.decode? cfg.maxDepth p.snapshot = some s ∧ s.atLineStart = true ∧
      s.finalBreakDone = false ∧
      s.stack.opened.length +
          (structureOf ((tokenize source cfg).tokens.take p.index)).count .indentClose =
        (structureOf ((tokenize source cfg).tokens.take p.index)).count .indentOpen := by
  obtain ⟨ms, b, leads, at', small, rfl⟩ := leads_of_checkpoint hp
  have sound := leads.sound (sound_initial cfg)
  obtain ⟨start, unended⟩ := leads.flags at'
  refine ⟨b.state, Snapshot.decode?_encode_of_sound sound small, start, unended, ?_⟩
  have opened := leads.opened 0 0
  simp only [tokens_before leads]
  simpa [Spot.start, State.initial, Stack.ofCapacity] using opened

theorem isLineStart_of_mem (hp : p ∈ (tokenize source cfg).checkpoints) :
    IsLineStart source p.offset := by
  obtain ⟨ms, b, leads, at', -, rfl⟩ := leads_of_checkpoint hp
  exact leads.isLineStart at'

end

/-! ## Lexers at line starts -/

section
variable (cfg : Config) {source t u : List Char} (h : source = t ++ '\n' :: u)
include h

theorem exists_step_of_newline : ∃ k l, ((Lexer.ofSource source cfg).after k).step.1 = .token l ∧
    l.token = .scanned .lineBreak ∧ l.span.start < l.span.stop ∧ l.span.stop = byteLength t + 1 ∧
    ((∃ p ∈ (tokenize source cfg).checkpoints, p.offset = byteLength t + 1) ↔
      ((Lexer.ofSource source cfg).after k).step.2.state.stack.size ≤ Snapshot.maxLevels) := by
  obtain ⟨ms, b, leads, at', text⟩ := leads_to_newline cfg h
  rcases List.eq_nil_or_concat ms with rfl | ⟨ns, m, rfl⟩
  · simp at text
  rw [List.concat_eq_append] at leads at' text
  have iff := exists_checkpoint_iff leads at'
  have stop : byteLength (textOf ns) + byteLength m.whole = byteLength t + 1 := by
    rw [← byteLength_newline, ← text]
    simp
  obtain rfl := leads.next_eq
  obtain ⟨c, before, rfl⟩ := leads.last
  obtain ⟨event, next⟩ := ((Lexer.at_ofSource source cfg).along before).step
  have ends := atLine_append_singleton.mp at'
  have sign := (endsLine_iff.mp ends).1
  rw [← endsLine_lexeme sign (byteLength (textOf ns)), Lexeme.endsLine_iff] at ends
  rw [text, byteLength_newline, ← next.state] at iff
  rw [Nat.zero_add, Piece.event, sign] at event
  exact ⟨ns.length, _, event, ends.1, ends.2, stop, iff⟩

theorem exists_checkpoint_of_newline (room : cfg.maxDepth ≤ Snapshot.maxLevels) :
    ∃ p ∈ (tokenize source cfg).checkpoints, p.offset = byteLength t + 1 := by
  obtain ⟨ms, b, leads, at', text⟩ := leads_to_newline cfg h
  have sound := leads.sound (sound_initial cfg)
  have fits := sound.valid.fits
  rw [sound.capacity] at fits
  rw [← byteLength_newline, ← text]
  refine (exists_checkpoint_iff leads at').mpr (Nat.le_trans fits (Nat.max_le.mpr ⟨room, ?_⟩))
  decide

end

/-- The first checkpoint is the start of the text, with the initial state. The others come in order,
each behind a line break with a terminator, and each snapshot is of a state at the start of a line,
before the end of the text, with the levels open that the tokens before it have opened and not ended.
The checkpoints are the line starts but for those where more levels are open than a snapshot holds,
so they are all line starts where no more levels fit. -/
theorem checkpoints_tokenize (source : List Char) (cfg : Config) :
    let o := tokenize source cfg
    o.checkpoints.head? = some ⟨0, 0, Snapshot.encode (.initial cfg.maxDepth)⟩ ∧
    o.checkpoints.Pairwise (fun p q => p.offset < q.offset ∧ p.index < q.index) ∧
    (∀ p ∈ o.checkpoints.tail, o.EndsLineAt p) ∧
    (∀ p ∈ o.checkpoints, IsLineStart source p.offset ∧
      ∃ s, Snapshot.decode? cfg.maxDepth p.snapshot = some s ∧ s.atLineStart = true ∧
        s.finalBreakDone = false ∧
        s.stack.opened.length + (structureOf (o.tokens.take p.index)).count .indentClose =
          (structureOf (o.tokens.take p.index)).count .indentOpen) ∧
    (∀ t u, source = t ++ '\n' :: u →
      ∃ k l, ((Lexer.ofSource source cfg).after k).step.1 = .token l ∧
        l.token = .scanned .lineBreak ∧ l.span.start < l.span.stop ∧ l.span.stop = byteLength t + 1 ∧
        ((∃ p ∈ o.checkpoints, p.offset = byteLength t + 1) ↔
          ((Lexer.ofSource source cfg).after k).step.2.state.stack.size ≤ Snapshot.maxLevels)) ∧
    (cfg.maxDepth ≤ Snapshot.maxLevels →
      ∀ n, (∃ p ∈ o.checkpoints, p.offset = n) ↔ IsLineStart source n) := by
  intro o
  have first : o.checkpoints.head? = some ⟨0, 0, Snapshot.encode (.initial cfg.maxDepth)⟩ :=
    congrArg (·.checkpoints.head?) (tokenize_eq source cfg)
  refine ⟨first, ?_, ?_, ?_, ?_, ?_⟩
  · apply (Output.ordered_tokenize source cfg).imp_of_mem
    intro p q hp hq lt
    exact ⟨lt, index_lt hp hq lt⟩
  · intro p hp
    have pos := offset_pos_of_mem_tail hp
    exact (endsLineAt_of_mem (List.mem_of_mem_tail hp)).resolve_left fun start => Nat.ne_of_gt pos start.1
  · intro p hp
    exact ⟨isLineStart_of_mem hp, decode?_checkpoint hp⟩
  · intro t u split
    exact exists_step_of_newline cfg split
  · intro room n
    constructor
    · rintro ⟨p, hp, rfl⟩
      exact isLineStart_of_mem hp
    · rintro (rfl | ⟨t, u, split, rfl⟩)
      · exact ⟨_, List.mem_of_head? first, rfl⟩
      · exact exists_checkpoint_of_newline cfg split room

end Offside
