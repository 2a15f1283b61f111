import Offside.Proofs.Strides

/-!
# Line starts

A line feed is the end of a stride that ends a line, so strides that take a text up to a line feed
end there. They do not depend on what follows (`leads_of_lineStart`), and no other strides take that
text (`Leads.unique`). Every checkpoint stands where strides have just ended a line
(`leads_of_checkpoint`).
-/

namespace Offside

/-- Nothing, or text up to and with a line feed. -/
def LineStart (t : List Char) : Prop := t = [] ∨ t.getLast? = some '\n'

def AtLine (ms : List (Piece Sign)) : Prop := ∀ m ∈ ms.getLast?, m.endsLine = true

/-! ## Strides that end a line -/

section
variable {cfg : Config} {a b : Spot}

theorem endsLine_iff {m : Piece Sign} :
    m.endsLine = true ↔ m.sign = .token (.scanned .lineBreak) ∧ m.text ≠ [] := by
  simp [Piece.endsLine]

theorem whole_of_mem (h : '\n' ∈ (stride cfg a).whole) :
    ∃ w, (stride cfg a).whole = w ++ ['\n'] ∧ '\n' ∉ w := by
  have line := stride_onLine cfg a
  have hm : '\n' ∈ (stride cfg a).text := (List.mem_append.mp h).resolve_left line.before
  rcases line.terminator (Decidable.byContradiction fun hs => line.inside hs hm) with ht | ht | ⟨-, ht⟩
  · rw [ht] at hm; cases hm
  · exact ⟨(stride cfg a).before, by rw [Piece.whole, ht], line.before⟩
  · refine ⟨(stride cfg a).before ++ ['\r'], by rw [Piece.whole, ht, List.append_assoc]; rfl, ?_⟩
    simp [line.before]

theorem endsLine_iff_mem : (stride cfg a).endsLine = true ↔ '\n' ∈ (stride cfg a).whole := by
  have line := stride_onLine cfg a
  constructor
  · intro h
    obtain ⟨hs, hne⟩ := endsLine_iff.mp h
    rcases line.terminator hs with ht | ht | ⟨-, ht⟩
    · exact absurd ht hne
    · simp [Piece.whole, ht]
    · simp [Piece.whole, ht]
  · intro h
    have hm : '\n' ∈ (stride cfg a).text := (List.mem_append.mp h).resolve_left line.before
    exact endsLine_iff.mpr ⟨Decidable.byContradiction fun hs => line.inside hs hm, List.ne_nil_of_mem hm⟩

theorem count_newline_stride (cfg : Config) (a : Spot) :
    (stride cfg a).whole.count '\n' = if (stride cfg a).endsLine then 1 else 0 := by
  split
  · next h =>
    obtain ⟨w, hw, hn⟩ := whole_of_mem (endsLine_iff_mem.mp h)
    rw [hw, List.count_append, List.count_eq_zero_of_not_mem hn]; rfl
  · next h => exact List.count_eq_zero_of_not_mem fun hm => h (endsLine_iff_mem.mpr hm)

theorem sign_ne_done_of_mem (h : '\n' ∈ a.rest) : (stride cfg a).sign ≠ .done := by
  intro hd
  have split := stride_split cfg a
  rw [(stride_of_done a hd).1, List.append_nil] at split
  rw [split] at h
  have := (endsLine_iff.mp (endsLine_iff_mem.mpr h)).1
  rw [hd] at this; cases this

end

/-! ## Strides up to a line start -/

theorem LineStart.mem {t : List Char} (h : LineStart t) (ne : t ≠ []) : '\n' ∈ t :=
  List.mem_of_getLast? (h.resolve_left ne)

theorem LineStart.cases {t : List Char} (h : LineStart t) : t = [] ∨ ∃ w, t = w ++ ['\n'] :=
  h.imp_right List.getLast?_eq_some_iff.mp

theorem LineStart.of_append {v w : List Char} (h : LineStart (v ++ w)) : LineStart w := by
  rcases List.eq_nil_or_concat w with rfl | ⟨w, c, rfl⟩
  · exact .inl rfl
  · right
    have := h.resolve_left (by simp)
    rw [List.concat_eq_append, ← List.append_assoc] at this
    simpa using this

theorem atLine_nil : AtLine [] := by simp [AtLine]

theorem AtLine.cons {m : Piece Sign} {ms : List (Piece Sign)} (h : AtLine ms)
    (hm : ms = [] → m.endsLine = true) : AtLine (m :: ms) := by
  intro n hn
  cases ms with
  | nil => simp only [List.getLast?_singleton, Option.mem_some] at hn; exact hn ▸ hm rfl
  | cons m' ms => rw [List.getLast?_cons_cons] at hn; exact h n hn

theorem forall_getLast?_tail {α : Type} {q : α → Prop} {a : α} {l : List α}
    (h : ∀ b ∈ (a :: l).getLast?, q b) : ∀ b ∈ l.getLast?, q b := by
  cases l with
  | nil => nofun
  | cons c l => intro b hb; exact h b (by rw [List.getLast?_cons_cons]; exact hb)

theorem AtLine.tail {m : Piece Sign} {ms : List (Piece Sign)} (h : AtLine (m :: ms)) : AtLine ms :=
  forall_getLast?_tail h

theorem atLine_append_singleton {ms : List (Piece Sign)} {m : Piece Sign} :
    AtLine (ms ++ [m]) ↔ m.endsLine = true := by
  simp [AtLine]

theorem AtLine.map_extend {ms : List (Piece Sign)} (h : AtLine ms) (u : List Char) :
    AtLine (ms.map (Piece.extend u)) := by
  intro m hm
  rw [List.getLast?_map] at hm
  obtain ⟨n, hn, rfl⟩ := Option.map_eq_some_iff.mp hm
  exact h n hn

theorem textOf_map_extend (u : List Char) (ms : List (Piece Sign)) :
    textOf (ms.map (Piece.extend u)) = textOf ms := by
  induction ms with
  | nil => rfl
  | cons m ms ih => rw [List.map_cons, textOf_cons, textOf_cons, ih, Piece.whole_extend]

theorem tokenCount_map_extend (u : List Char) (ms : List (Piece Sign)) :
    tokenCount (ms.map (Piece.extend u)) = tokenCount ms := List.countP_map

/-- The strides that take a text up to a line start are the same whatever follows. -/
theorem leads_of_lineStart (cfg : Config) {t : List Char} (h : LineStart t) (s : State) :
    ∃ ms s', AtLine ms ∧ textOf ms = t ∧
      ∀ u, Leads cfg ⟨s, t ++ u⟩ (ms.map (Piece.extend u)) ⟨s', u⟩ := by
  by_cases ne : t = []
  · subst ne
    exact ⟨[], s, atLine_nil, rfl, fun u => .refl _⟩
  have hm := h.mem ne
  have hd : (stride cfg ⟨s, t⟩).sign ≠ .done := sign_ne_done_of_mem hm
  have split : t = (stride cfg ⟨s, t⟩).whole ++ (stride cfg ⟨s, t⟩).next.rest := stride_split cfg ⟨s, t⟩
  have step : ∀ (u : List Char) (ms : List (Piece Sign)) (b : Spot),
      Leads cfg ((stride cfg ⟨s, t⟩).next.extend u) ms b →
      Leads cfg ⟨s, t ++ u⟩ ((stride cfg ⟨s, t⟩).extend u :: ms) b := by
    intro u ms b leads
    have e : stride cfg ⟨s, t ++ u⟩ = (stride cfg ⟨s, t⟩).extend u := stride_extend (a := ⟨s, t⟩) u hm
    have first : Leads cfg ⟨s, t ++ u⟩ (stride cfg ⟨s, t ++ u⟩ :: ms) b :=
      .step (by rw [e]; exact hd) (by rw [e]; exact leads)
    rwa [e] at first
  obtain ⟨ms, s', at', text, leads⟩ :=
    leads_of_lineStart cfg (LineStart.of_append (split ▸ h)) (stride cfg ⟨s, t⟩).next.state
  refine ⟨stride cfg ⟨s, t⟩ :: ms, s', at'.cons fun e => ?_, by rw [textOf_cons, text, ← split],
    fun u => ?_⟩
  · -- the stride takes everything, the last line feed too
    rw [e, textOf_nil] at text
    rw [← text, List.append_nil] at split
    rw [split] at hm
    exact endsLine_iff_mem.mpr hm
  · exact step u _ _ (leads u)
termination_by Scan.weight s t
decreasing_by exact stride_weight_lt cfg ⟨s, t⟩ hd

section
variable {cfg : Config} {a b : Spot} {ms : List (Piece Sign)}

theorem leads_cons_iff {m : Piece Sign} :
    Leads cfg a (m :: ms) b ↔ m = stride cfg a ∧ m.sign ≠ .done ∧ Leads cfg m.next ms b := by
  constructor
  · rintro (_ | ⟨hd, h⟩); exact ⟨rfl, hd, h⟩
  · rintro ⟨rfl, hd, h⟩; exact .step hd h

theorem leads_nil_iff : Leads cfg a [] b ↔ a = b :=
  ⟨fun h => by cases h; rfl, fun h => h ▸ .refl a⟩

theorem Leads.eq_stride (h : Leads cfg a ms b) : ∀ m ∈ ms, ∃ c, m = stride cfg c := by
  induction h with
  | refl => nofun
  | @step a b ms _ _ ih =>
    intro m hm
    rcases List.mem_cons.mp hm with rfl | hm
    · exact ⟨a, rfl⟩
    · exact ih m hm

theorem Leads.next_eq {m : Piece Sign} (h : Leads cfg a (ms ++ [m]) b) : m.next = b := by
  induction ms generalizing a with
  | nil => exact leads_nil_iff.mp (leads_cons_iff.mp h).2.2
  | cons m' ms ih => exact ih (leads_cons_iff.mp h).2.2

theorem Leads.last {m : Piece Sign} (h : Leads cfg a (ms ++ [m]) b) :
    ∃ c, Leads cfg a ms c ∧ m = stride cfg c := by
  induction ms generalizing a with
  | nil => exact ⟨a, .refl a, (leads_cons_iff.mp h).1⟩
  | cons n ms ih =>
    obtain ⟨rfl, more, h⟩ := leads_cons_iff.mp h
    obtain ⟨c, leads, hm⟩ := ih h
    exact ⟨c, .step more leads, hm⟩

theorem Leads.lineStart (h : Leads cfg a ms b) (at' : AtLine ms) : LineStart (textOf ms) := by
  rcases List.eq_nil_or_concat ms with rfl | ⟨ms, m, rfl⟩
  · exact .inl rfl
  rw [List.concat_eq_append] at h at' ⊢
  obtain ⟨c, rfl⟩ := h.eq_stride m (by simp)
  obtain ⟨w, hw, -⟩ := whole_of_mem (endsLine_iff_mem.mp (atLine_append_singleton.mp at'))
  right
  rw [textOf_append, textOf_cons, textOf_nil, List.append_nil, hw, ← List.append_assoc]
  simp

theorem Leads.text_ne_nil (h : Leads cfg a ms b) (at' : AtLine ms) (ne : ms ≠ []) : textOf ms ≠ [] := by
  rcases List.eq_nil_or_concat ms with rfl | ⟨ms, m, rfl⟩
  · exact absurd rfl ne
  rw [List.concat_eq_append] at h at' ⊢
  obtain ⟨c, rfl⟩ := h.eq_stride m (by simp)
  obtain ⟨w, hw, -⟩ := whole_of_mem (endsLine_iff_mem.mp (atLine_append_singleton.mp at'))
  rw [textOf_append, textOf_cons, hw]
  simp

theorem Leads.unique {ns : List (Piece Sign)} {c : Spot} (h : Leads cfg a ms b) (h' : Leads cfg a ns c)
    (hm : AtLine ms) (hn : AtLine ns) (e : textOf ms = textOf ns) : ms = ns ∧ b = c := by
  induction h generalizing ns with
  | refl a =>
    cases ns with
    | nil => exact ⟨rfl, leads_nil_iff.mp h'⟩
    | cons n ns => exact absurd e.symm (h'.text_ne_nil hn (by simp))
  | @step a b ms hd h ih =>
    cases ns with
    | nil => exact absurd e ((Leads.step hd h).text_ne_nil hm (by simp))
    | cons n ns =>
      obtain ⟨rfl, -, h'⟩ := leads_cons_iff.mp h'
      rw [textOf_cons, textOf_cons] at e
      obtain ⟨rfl, rfl⟩ := ih h' hm.tail hn.tail (List.append_cancel_left e)
      exact ⟨rfl, rfl⟩

theorem Leads.count_newline (h : Leads cfg a ms b) :
    (textOf ms).count '\n' = ms.countP Piece.endsLine := by
  induction h with
  | refl => rfl
  | @step a b ms _ _ ih =>
    rw [textOf_cons, List.count_append, ih, count_newline_stride, List.countP_cons, Nat.add_comm]

end

namespace Output

/-! ## Where output stands -/

theorem ofStrides_map_extend (u : List Char) : ∀ (o i : Nat) (ms : List (Piece Sign)),
    ofStrides o i (ms.map (Piece.extend u)) = ofStrides o i ms
  | _, _, [] => rfl
  | o, i, m :: ms => by
    rw [List.map_cons, ofStrides, ofStrides, ofStrides_map_extend u, Piece.whole_extend]
    rfl

end Output

theorem Leads.swap {cfg : Config} {a b : Spot} {ms : List (Piece Sign)} (h : Leads cfg a ms b)
    (at' : AtLine ms) (u : List Char) :
    ∃ ns, Leads cfg ⟨a.state, textOf ms ++ u⟩ ns ⟨b.state, u⟩ ∧ textOf ns = textOf ms ∧
      tokenCount ns = tokenCount ms ∧ ∀ o i, Output.ofStrides o i ns = Output.ofStrides o i ms := by
  obtain ⟨ls, s, atL, text, leads⟩ := leads_of_lineStart cfg (h.lineStart at') a.state
  have same : Leads cfg a (ls.map (Piece.extend b.rest)) ⟨s, b.rest⟩ := by
    have := leads b.rest
    rwa [← h.split] at this
  obtain ⟨hms, hb⟩ := h.unique same at' (atL.map_extend _) (by rw [textOf_map_extend, text])
  refine ⟨ls.map (Piece.extend u), ?_, ?_, ?_, fun o i => ?_⟩
  · rw [hb]; exact leads u
  · rw [textOf_map_extend, text]
  · rw [hms, tokenCount_map_extend, tokenCount_map_extend]
  · rw [hms, Output.ofStrides_map_extend, Output.ofStrides_map_extend]

namespace Output

structure Within (o stop : Nat) (x : Output) : Prop where
  tokens : ∀ l ∈ x.tokens, o ≤ l.span.start ∧ l.span.start ≤ l.span.stop ∧ l.span.stop ≤ stop
  diagnostics : ∀ d ∈ x.diagnostics, o ≤ d.offset ∧ d.offset < stop
  checkpoints : ∀ p ∈ x.checkpoints, o < p.offset ∧ p.offset ≤ stop
  ordered : x.checkpoints.Pairwise (·.offset < ·.offset)

theorem Within.append {o n stop : Nat} {x y : Output} (hx : x.Within o n) (hy : y.Within n stop)
    (hon : o ≤ n) (hn : n ≤ stop) : (x.append y).Within o stop where
  tokens l hl := by
    rcases List.mem_append.mp hl with hl | hl
    · have := hx.tokens l hl; omega
    · have := hy.tokens l hl; omega
  diagnostics d hd := by
    rcases List.mem_append.mp hd with hd | hd
    · have := hx.diagnostics d hd; omega
    · have := hy.diagnostics d hd; omega
  checkpoints p hp := by
    rcases List.mem_append.mp hp with hp | hp
    · have := hx.checkpoints p hp; omega
    · have := hy.checkpoints p hp; omega
  ordered := List.pairwise_append.mpr ⟨hx.ordered, hy.ordered, fun p hp q hq => by
    have := hx.checkpoints p hp
    have := hy.checkpoints q hq
    omega⟩

theorem within_ofStride (cfg : Config) (o i : Nat) (a : Spot) :
    (ofStride o i (stride cfg a)).Within o (o + byteLength (stride cfg a).whole) := by
  refine ⟨fun l hl => ?_, fun d hd => ?_, fun p hp => ?_, ?_⟩
  · unfold ofStride at hl
    split at hl
    · rw [List.mem_singleton.mp hl]
      simp only [Piece.whole, byteLength_append]
      omega
    · cases hl
    · cases hl
  · unfold ofStride at hd
    split at hd
    · cases hd
    · next e he =>
      rw [List.mem_singleton.mp hd]
      have := mt byteLength_eq_zero_iff.mp (stride_text_of_refused he)
      simp only [Piece.whole, byteLength_append]
      omega
    · cases hd
  · obtain ⟨hl, -, rfl⟩ := mem_checkpoints_ofStride hp
    have := mt byteLength_eq_zero_iff.mp (endsLine_iff.mp hl).2
    simp only [Piece.whole, byteLength_append]
    omega
  · unfold ofStride
    split
    · simp only; split <;> simp
    · simp
    · simp

theorem within_ofStrides {cfg : Config} {a b : Spot} {ms : List (Piece Sign)} (h : Leads cfg a ms b)
    (o i : Nat) : (ofStrides o i ms).Within o (o + byteLength (textOf ms)) := by
  induction h generalizing o i with
  | refl => exact ⟨nofun, nofun, nofun, .nil⟩
  | @step a b ms _ _ ih =>
    have tail := ih (o + byteLength (stride cfg a).whole) (i + tokenCount [stride cfg a])
    rw [textOf_cons, byteLength_append, ← Nat.add_assoc]
    exact (within_ofStride cfg o i a).append tail (Nat.le_add_right ..) (Nat.le_add_right ..)

theorem split_of_mem_checkpoints : ∀ {ms : List (Piece Sign)} {o i : Nat} {p : Checkpoint},
    p ∈ (ofStrides o i ms).checkpoints → ∃ ns m ks, ms = ns ++ m :: ks ∧ m.endsLine = true ∧
      m.next.state.stack.size ≤ Snapshot.maxLevels ∧
      p = ⟨o + byteLength (textOf (ns ++ [m])), i + tokenCount (ns ++ [m]), Snapshot.encode m.next.state⟩
  | m :: ms, o, i, p, h => by
    rcases List.mem_append.mp h with h | h
    · obtain ⟨hl, small, rfl⟩ := mem_checkpoints_ofStride h
      refine ⟨[], m, ms, rfl, hl, small, ?_⟩
      rw [List.nil_append, textOf_cons, textOf_nil, List.append_nil,
        tokenCount_token (endsLine_iff.mp hl).1]
    · obtain ⟨ns, n, ks, rfl, hl, small, rfl⟩ := split_of_mem_checkpoints h
      refine ⟨m :: ns, n, ks, rfl, hl, small, ?_⟩
      rw [List.cons_append, textOf_cons, byteLength_append, tokenCount_cons m (ns ++ [n]), Nat.add_assoc,
        Nat.add_assoc]

end Output

end Offside
