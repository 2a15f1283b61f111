import Offside.Scan.Step

/-!
# Steps use up the text

`weight` bounds how many tokens a state and a text can still give: two for each character, one for
each open level and one for the end of the text, less one while a line is under way. When all kinds
of the variant are acceptable, every token and every refusal lowers it, and a step that decides
nothing does not raise it (`lowers_tryScan`).
-/

namespace Offside

namespace Scan

def weight (s : State) (rest : List Char) : Nat :=
  2 * rest.length + s.stack.opened.length + (if s.finalBreakDone then 0 else 1)
    - (if s.atLineStart || rest.isEmpty then 0 else 1)

theorem weight_lt_of_length_lt {s t : State} {r r' : List Char} (hl : r'.length < r.length)
    (ho : t.stack.opened.length ≤ s.stack.opened.length)
    (hf : s.finalBreakDone = true → t.finalBreakDone = true) : weight t r' < weight s r := by
  unfold weight
  cases hs : s.finalBreakDone
  · repeat' split
    all_goals simp_all; try omega
  · simp only [hf hs]
    repeat' split
    all_goals simp_all; try omega

/-- The state may forget that a line starts. -/
theorem weight_le {s : State} {b : Bool} {r r' : List Char} (hl : r'.length ≤ r.length)
    (hb : b = false ∨ b = s.atLineStart) : weight { s with atLineStart := b } r' ≤ weight s r := by
  rcases Nat.lt_or_eq_of_le hl with h | h
  · exact Nat.le_of_lt (weight_lt_of_length_lt h (Nat.le_refl _) id)
  · have : r'.isEmpty = r.isEmpty := by cases r <;> cases r' <;> simp_all
    unfold weight
    rcases hb with rfl | rfl <;> simp only [this, h, Bool.false_or]
    · exact Nat.sub_le_sub_left (by cases s.atLineStart <;> cases r.isEmpty <;> decide) _
    · omega

theorem length_pop_lt {st : Stack} (h : st.opened ≠ []) :
    st.pop.opened.length < st.opened.length := by
  have := List.length_pos_iff.2 h
  simp [Stack.pop]; omega

theorem opened_ne_nil_of_lt_top {st : Stack} {d : Nat} (h : d < st.top) : st.opened ≠ [] := by
  intro e; simp [Stack.top, e] at h

variable {cfg : Config} {s : State} {c : Cursor}

/-! ## The end of the text -/

theorem weight_lt_of_atEnd {k : Kind} (hr : c.rest = [])
    (h : (atEnd cfg cfg.kinds s c).verdict = .produced k) :
    weight (atEnd cfg cfg.kinds s c).state (atEnd cfg cfg.kinds s c).cursor.stop.rest < weight s c.rest := by
  revert h
  have hr' : c.here.rest = [] := hr
  unfold atEnd lineBreak
  split
  · next h =>
    intro _
    have : s.finalBreakDone = false := by
      simp only [finalBreakDue, Bool.and_eq_true, Bool.not_eq_true'] at h; exact h.1.1
    simp [weight, hr, hr', this]
  · split
    · next h =>
      intro _
      have : s.stack.opened ≠ [] := by
        intro e; simp [Stack.isBase, e] at h
      have := length_pop_lt this
      simp only [weight, Cursor.stop_mark, hr, hr', List.length_nil, List.isEmpty_nil, Bool.or_true, if_true]
      omega
    · intro h; cases h

/-- What a step does to the weight, read off its outcome. -/
def Lowers (s : State) (c : Cursor) : Outcome → Prop
  | ⟨.produced _, t, b⟩ => weight t b.stop.rest < weight s c.rest
  | ⟨.refused _, t, b⟩ => weight t b.rest < weight s c.rest
  | ⟨.nothing, t, b⟩ => weight t b.rest ≤ weight s c.rest

/-! ## A line -/

theorem lowers_line {d : Nat} {a : Cursor} (hm : s.atLineStart = true)
    (hn : c.rest ≠ []) (hd : 0 < d → a.rest.length < c.rest.length) (hl : a.rest.length ≤ c.rest.length)
    (hs : a.stop = c.here) :
    Lowers s c (line cfg cfg.kinds { s with atLineStart := false } d a) := by
  have hs' : a.stop.rest = c.rest := by rw [hs]; rfl
  have ha : a.here.rest = a.rest := rfl
  have base : weight s c.rest =
      2 * c.rest.length + s.stack.opened.length + (if s.finalBreakDone then 0 else 1) := by
    simp [weight, hm]
  unfold line
  simp only [Config.contains_indentOpen, Config.contains_indentClose, if_true]
  split
  · next h =>
    have hd := hd (Nat.lt_of_le_of_lt (Nat.zero_le _) h)
    cases hp : s.stack.push d with
    | error e => exact weight_lt_of_length_lt hd (Nat.le_refl _) id
    | ok st =>
      have : st.opened.length = s.stack.opened.length + 1 := by
        unfold Stack.push at hp
        split at hp
        · cases hp
        · split at hp
          · cases hp
          · cases hp; simp
      simp only [Lowers, Cursor.stop_mark, base, ha]
      unfold weight
      simp only [this]
      split <;> split <;> omega
  · split
    · next h =>
      have hp := length_pop_lt (opened_ne_nil_of_lt_top h)
      split
      · simp only [Lowers, hs', base]
        unfold weight; simp only [Bool.true_or, if_true]; omega
      · simp only [Lowers, Cursor.stop_mark, base, ha]
        unfold weight
        split <;> split <;> simp_all <;> omega
    · split
      · simp only [Lowers, Cursor.stop_mark, ha]
        rcases Nat.lt_or_eq_of_le hl with h | h
        · exact weight_lt_of_length_lt h (Nat.le_refl _) id
        · have pos := List.length_pos_iff.2 hn
          have he : a.rest.isEmpty = false := by
            cases hr : a.rest with
            | nil => rw [hr] at h; exact absurd (List.length_eq_zero_iff.1 h.symm) hn
            | cons => rfl
          rw [base]; unfold weight; simp only [he, Bool.false_or]
          simp; omega
      · exact weight_le hl (.inl rfl)

/-! ## Every step -/

theorem lowers_indentation (hm : s.atLineStart = true) (hn : c.rest ≠ []) :
    Lowers s c (indentation cfg cfg.kinds s c) := by
  have here : (c.mark.advanceWhile cfg.isIndent true).here.rest = c.rest.dropWhile cfg.isIndent := by
    simp [Point.past, Cursor.rest]
  have hl : (c.rest.dropWhile cfg.isIndent).length ≤ c.rest.length :=
    (List.dropWhile_sublist _).length_le
  unfold indentation
  simp only
  split
  · next h =>
    simp only [Lowers, Cursor.rest]
    generalize (c.mark.advanceWhile cfg.isIndent true).atEnd = stop
    rw [show (if stop then { s with atLineStart := false } else s) =
      { s with atLineStart := if stop then false else s.atLineStart } by split <;> rfl]
    exact weight_le (by rw [here]; exact hl) (by split <;> simp)
  · next d h =>
    exact lowers_line hm hn
      (fun hd => by rw [Cursor.rest, here]; exact Config.dropWhile_length_lt_of_measure h hd)
      (by rw [Cursor.rest, here]; exact hl) (by simp [Cursor.stop]; rfl)

theorem next_length_lt {p : Point} {x : Char} (h : p.rest.head? = some x) :
    p.next.rest.length < p.rest.length := by
  unfold Point.next; cases hp : p.rest <;> simp_all

theorem lowers_tryScan (cfg : Config) (s : State) (c : Cursor) :
    Lowers s c (tryScan cfg cfg.kinds s c) := by
  unfold tryScan
  split
  · next h =>
    have hr : c.rest = [] := by simpa [Cursor.look] using h
    generalize ho : atEnd cfg cfg.kinds s c = o
    obtain ⟨v, t, b⟩ := o
    cases v with
    | produced k =>
      have := weight_lt_of_atEnd hr (by rw [ho])
      rw [ho] at this; exact this
    | refused e =>
      unfold atEnd lineBreak at ho; split at ho
      · cases ho
      · split at ho <;> cases ho
    | nothing =>
      unfold atEnd lineBreak at ho; split at ho
      · cases ho
      · split at ho
        · cases ho
        · cases ho; exact Nat.le_refl _
  · next x h =>
    have hx := next_length_lt h
    split
    · simp only [lineBreak, Lowers, Cursor.stop_mark, Cursor.here_advance]
      exact weight_lt_of_length_lt hx (Nat.le_refl _) id
    · next hnl =>
      split
      · unfold carriageReturn; simp only; split
        · simp only [lineBreak, Lowers, Cursor.stop_mark, Cursor.here_advance]
          exact weight_lt_of_length_lt (Nat.lt_of_le_of_lt (Point.reaches_next _).length_le hx)
            (Nat.le_refl _) id
        · simp only [Lowers, Cursor.rest, Cursor.here_advance]
          exact Nat.le_of_lt (weight_lt_of_length_lt hx (Nat.le_refl _) id)
      · next hcr =>
        split
        · simp only [comment, Lowers, Cursor.stop_mark, Cursor.here_advanceWhile]
          refine weight_lt_of_length_lt ?_ (Nat.le_refl _) id
          -- the comment's first character does not end it
          have hne : cfg.endsComment x = false := by
            simp only [Config.contains_lineBreak, and_true] at hnl hcr
            simp only [Config.endsComment, Bool.or_eq_false_iff, Bool.and_eq_false_iff, beq_eq_false_iff_ne]
            exact ⟨hnl, by by_cases e : x = '\r' <;> simp_all⟩
          cases hr : c.rest with
          | nil => simp [Cursor.look, hr] at h
          | cons y r =>
            simp only [Cursor.look, hr, List.head?_cons, Option.some.injEq] at h
            subst h
            simp only [Point.past, List.dropWhile_cons, hne, Bool.not_false, if_true, List.length_cons]
            exact Nat.lt_succ_of_le (List.dropWhile_sublist _).length_le
        · split
          · next hi =>
            exact lowers_indentation (by simpa using hi.1) (by intro e; simp [Cursor.look, e] at h)
          · exact Nat.le_refl _

end Scan

end Offside
