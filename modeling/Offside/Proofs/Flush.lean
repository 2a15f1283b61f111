import Offside.Proofs.Strides
import Offside.Proofs.Turns

/-!
# The end of the text

A host may ask at the end of the text as often as it likes, each time for other kinds. What is left
to produce there is the line break, if it is pending, and an end for each open level. A call takes
one of them off or none (`Polled`), and while any is left, a call for both kinds takes one off. So
all of them are produced, in whatever order, and nothing after them (`end_flushed`).
-/

namespace Offside

def State.BreakPending (cfg : Config) (s : State) : Prop :=
  s.finalBreakDone = false ∧ (cfg.finalBreak = .always ∨ s.atLineStart = false)

instance (cfg : Config) (s : State) : Decidable (s.BreakPending cfg) :=
  inferInstanceAs (Decidable (_ ∧ _))

def State.breaksLeft (cfg : Config) (s : State) : Nat := if s.BreakPending cfg then 1 else 0

theorem finalBreakDue_iff {cfg : Config} {s : State} :
    Scan.finalBreakDue cfg s = true ↔ s.BreakPending cfg := by
  unfold Scan.finalBreakDue State.BreakPending
  cases cfg.finalBreak <;> simp

theorem Stack.length_opened_eq_zero_iff {s : Stack} : s.opened.length = 0 ↔ s.isBase = true := by
  rw [Stack.isBase, List.isEmpty_iff, List.length_eq_zero_iff]

/-! ## One call -/

/-- What a call for the kinds `valid` at the end of the text produces, and the state it leaves. -/
inductive Polled (cfg : Config) (valid : KindSet) (s : State) : Option Kind → State → Prop
  | lineBreak : s.BreakPending cfg →
      Polled cfg valid s (some .lineBreak) { s with finalBreakDone := true, atLineStart := true }
  | close : s.stack.isBase = false →
      Polled cfg valid s (some .indentClose) { s with stack := s.stack.pop }
  | nothing : (s.BreakPending cfg → valid.contains .lineBreak = false) →
      (s.stack.isBase = false → valid.contains .indentClose = false) → Polled cfg valid s none s

section
variable {cfg : Config} {valid : KindSet} {s t : State} {c : Cursor} {k : Option Kind}

theorem scan_atEnd (h : c.atEnd = true) : scan cfg valid s c =
    if Scan.finalBreakDue cfg s && valid.contains .lineBreak then
      (some .lineBreak, { s with finalBreakDone := true, atLineStart := true }, c.mark)
    else if !s.stack.isBase && valid.contains .indentClose then
      (some .indentClose, { s with stack := s.stack.pop }, c.mark)
    else (none, s, c) := by
  have look : c.look = none := by
    rw [Cursor.look, List.isEmpty_iff.mp h]; rfl
  have step : tryScan cfg valid s c = Scan.atEnd cfg valid s c := by
    rw [tryScan]; simp only [look]
  rw [scan, step, Scan.atEnd]
  by_cases due : (Scan.finalBreakDue cfg s && valid.contains .lineBreak) = true
  · simp only [due, if_true, Scan.lineBreak]
  · by_cases base : (!s.stack.isBase && valid.contains .indentClose) = true
    · simp only [due, base, if_true, if_false, Bool.false_eq_true]
    · simp only [due, base, if_false, Bool.false_eq_true]

theorem polled_scan (cfg : Config) (valid : KindSet) (s : State) (h : c.atEnd = true) :
    Polled cfg valid s (scan cfg valid s c).1 (scan cfg valid s c).2.1 ∧
      (scan cfg valid s c).2.2.atEnd = true ∧
      ((scan cfg valid s c).1 = none → (scan cfg valid s c).2.2 = c) := by
  rw [scan_atEnd h]
  split
  · next due =>
    rw [Bool.and_eq_true] at due
    exact ⟨.lineBreak (finalBreakDue_iff.mp due.1), h, nofun⟩
  · next due =>
    split
    · next base =>
      rw [Bool.and_eq_true, Bool.not_eq_true'] at base
      exact ⟨.close base.1, h, nofun⟩
    · next base =>
      refine ⟨.nothing (fun pending => ?_) (fun opened => ?_), h, fun _ => rfl⟩
      · rw [finalBreakDue_iff.mpr pending, Bool.true_and] at due
        exact Bool.eq_false_iff.mpr due
      · rw [opened, Bool.not_false, Bool.true_and] at base
        exact Bool.eq_false_iff.mpr base

theorem Polled.breaksLeft (h : Polled cfg valid s k t) (ks : List (Option Kind)) :
    (k :: ks).count (some .lineBreak) + t.breaksLeft cfg =
      ks.count (some .lineBreak) + s.breaksLeft cfg := by
  cases h with
  | lineBreak pending =>
    rw [List.count_cons_self, State.breaksLeft, if_neg (by simp [State.BreakPending]),
      State.breaksLeft, if_pos pending]
  | close => rw [List.count_cons_of_ne (by simp)]; rfl
  | nothing => rw [List.count_cons_of_ne (by simp)]

theorem Polled.opened (h : Polled cfg valid s k t) (ks : List (Option Kind)) :
    (k :: ks).count (some .indentClose) + t.stack.opened.length =
      ks.count (some .indentClose) + s.stack.opened.length := by
  cases h with
  | lineBreak | nothing => rw [List.count_cons_of_ne (by simp)]
  | close base =>
    have := mt Stack.length_opened_eq_zero_iff.mp (Bool.eq_false_iff.mp base)
    rw [List.count_cons_self, Stack.pop, List.length_tail]
    omega

theorem Polled.kind {j : Kind} (h : Polled cfg valid s (some j) t) : j = .lineBreak ∨ j = .indentClose := by
  cases h with
  | lineBreak => exact .inl rfl
  | close => exact .inr rfl

theorem Polled.progress (h : Polled cfg valid s k t)
    (both : (valid.contains .lineBreak && valid.contains .indentClose) = true) :
    k = some .lineBreak ∨ k = some .indentClose ∨ s.breaksLeft cfg = 0 ∧ s.stack.opened.length = 0 := by
  rw [Bool.and_eq_true] at both
  cases h with
  | lineBreak => exact .inl rfl
  | close => exact .inr (.inl rfl)
  | nothing noBreak noClose =>
    refine .inr (.inr ⟨if_neg fun pending => ?_, ?_⟩)
    · rw [noBreak pending] at both
      cases both.1
    · rw [Stack.length_opened_eq_zero_iff]
      refine Decidable.byContradiction fun opened => ?_
      rw [noClose (Bool.eq_false_iff.mpr opened)] at both
      cases both.2

theorem Polled.over (h : Polled cfg valid s k t) (breaks : s.breaksLeft cfg = 0)
    (levels : s.stack.opened.length = 0) : k = none ∧ t = s := by
  cases h with
  | lineBreak pending => rw [State.breaksLeft, if_pos pending] at breaks; cases breaks
  | close base => rw [Stack.length_opened_eq_zero_iff.mp levels] at base; cases base
  | nothing => exact ⟨rfl, rfl⟩

end

/-! ## One call after the other -/

def polls (cfg : Config) (s : State) (c : Cursor) : List KindSet → List (Option Kind) × State × Cursor
  | [] => ([], s, c)
  | valid :: masks =>
    let o := scan cfg valid s c
    let r := polls cfg o.2.1 o.2.2 masks
    (o.1 :: r.1, r.2)

def KindSet.takesEnd (valid : KindSet) : Bool :=
  valid.contains .lineBreak && valid.contains .indentClose

section
variable (cfg : Config)

/-- What is produced and what is left then make up what was left before. -/
theorem polls_conserve : ∀ (masks : List KindSet) (s : State) {c : Cursor}, c.atEnd = true →
    (polls cfg s c masks).1.count (some .lineBreak) + (polls cfg s c masks).2.1.breaksLeft cfg =
        s.breaksLeft cfg ∧
      (polls cfg s c masks).1.count (some .indentClose) +
        (polls cfg s c masks).2.1.stack.opened.length = s.stack.opened.length ∧
      (∀ k, some k ∈ (polls cfg s c masks).1 → k = .lineBreak ∨ k = .indentClose) ∧
      (polls cfg s c masks).2.2.atEnd = true
  | [], s, c, h => ⟨Nat.zero_add _, Nat.zero_add _, nofun, h⟩
  | valid :: masks, s, c, h => by
    obtain ⟨polled, stays, -⟩ := polled_scan cfg valid s h
    obtain ⟨breaks, levels, kinds, atEnd⟩ := polls_conserve masks (scan cfg valid s c).2.1 stays
    refine ⟨?_, ?_, fun k hk => ?_, atEnd⟩
    · have := polled.breaksLeft (polls cfg (scan cfg valid s c).2.1 (scan cfg valid s c).2.2 masks).1
      simp only [polls]; omega
    · have := polled.opened (polls cfg (scan cfg valid s c).2.1 (scan cfg valid s c).2.2 masks).1
      simp only [polls]; omega
    · rcases List.mem_cons.mp hk with first | hk
      · rw [← first] at polled
        exact polled.kind
      · exact kinds k hk

theorem polls_progress : ∀ (masks : List KindSet) (s : State) {c : Cursor}, c.atEnd = true →
    masks.countP KindSet.takesEnd ≤ (polls cfg s c masks).1.count (some .lineBreak) +
        (polls cfg s c masks).1.count (some .indentClose) ∨
      (polls cfg s c masks).2.1.breaksLeft cfg = 0 ∧
        (polls cfg s c masks).2.1.stack.opened.length = 0
  | [], _, _, _ => .inl (Nat.zero_le _)
  | valid :: masks, s, c, h => by
    obtain ⟨polled, stays, -⟩ := polled_scan cfg valid s h
    obtain ⟨breaks, levels, -, -⟩ := polls_conserve cfg (valid :: masks) s h
    rcases polls_progress masks (scan cfg valid s c).2.1 stays with enough | none
    · by_cases both : valid.takesEnd = true
      · simp only [polls] at breaks levels ⊢
        rw [List.countP_cons_of_pos both]
        rcases polled.progress both with first | first | none
        · left
          rw [first, List.count_cons_self, List.count_cons_of_ne (by simp)]
          omega
        · left
          rw [first, List.count_cons_self, List.count_cons_of_ne (by simp)]
          omega
        · right; omega
      · left
        rw [List.countP_cons_of_neg both]
        simp only [polls, List.count_cons]
        omega
    · exact .inr none

theorem polls_over : ∀ (masks : List KindSet) {s : State} {c : Cursor}, c.atEnd = true →
    s.breaksLeft cfg = 0 → s.stack.opened.length = 0 →
    polls cfg s c masks = (List.replicate masks.length none, s, c)
  | [], _, _, _, _, _ => rfl
  | valid :: masks, s, c, h, breaks, levels => by
    obtain ⟨polled, -, stays⟩ := polled_scan cfg valid s h
    obtain ⟨nothing, same⟩ := polled.over breaks levels
    simp only [polls, nothing, same, stays nothing, polls_over masks h breaks levels]
    rfl

end

/-! ## Lexers -/

theorem Advance.base {cfg : Config} {a : Spot} {m : Piece Sign} (t : Advance cfg a m)
    (hs : m.sign = .done) : m.next.state.stack.isBase = true := by
  induction t with
  | scanned | refused | content => cases hs
  | done t => cases t with | theEnd _ base => exact base
  | passed _ _ _ ih => exact ih hs

theorem Lexer.at_resume_anywhere (source : List Char) (cfg : Config) (offset : Nat)
    (snapshot : List UInt8) :
    (resume source cfg offset snapshot).At cfg (Point.atOffset source offset).offset
      ⟨Snapshot.restore cfg.maxDepth snapshot, (Point.atOffset source offset).rest⟩ :=
  ⟨rfl, rfl, rfl, nofun⟩

theorem Lexer.At.base {cfg : Config} {o n : Nat} {a : Spot} {lx : Lexer} (h : lx.At cfg o a)
    (done : (lx.after n).step.1 = .done) : (lx.after n).step.2.state.stack.isBase = true := by
  obtain ⟨_, b, hat, -⟩ := At.after n h h
  obtain ⟨event, next⟩ := hat.step
  rw [event] at done
  rw [next.state]
  exact (advance cfg b).base (sign_of_event_done done)

/-- At the end of the text, whatever kinds a scanner is asked for there and in whatever order: it
produces the line break once at most, and only if it was pending, an end for each open level at
most, and nothing else. Once it has been asked for both kinds one time more than there were open
levels, it has produced them all, no level is open, and no further call produces or changes
anything. So no level is open when a lexer is done, wherever it started and in whatever state. -/
theorem end_flushed (cfg : Config) (s : State) {c : Cursor} (h : c.atEnd = true)
    (masks : List KindSet) :
    let r := polls cfg s c masks
    r.1.count (some .lineBreak) ≤ (if s.BreakPending cfg then 1 else 0) ∧
    r.1.count (some .indentClose) ≤ s.stack.opened.length ∧
    (∀ k, some k ∈ r.1 → k = .lineBreak ∨ k = .indentClose) ∧
    (s.stack.opened.length + 1 ≤ masks.countP KindSet.takesEnd →
      r.1.count (some .lineBreak) = (if s.BreakPending cfg then 1 else 0) ∧
      r.1.count (some .indentClose) = s.stack.opened.length ∧
      r.2.1.stack.isBase = true ∧
      ∀ more, polls cfg r.2.1 r.2.2 more = (List.replicate more.length none, r.2.1, r.2.2)) ∧
    ∀ source lx, (lx = Lexer.ofSource source cfg ∨
        ∃ offset snapshot, lx = Lexer.resume source cfg offset snapshot) →
      ∀ n, (lx.after n).step.1 = .done → (lx.after n).step.2.state.stack.isBase = true := by
  have conserve := polls_conserve cfg masks s h
  have progress := polls_progress cfg masks s h
  have total : s.breaksLeft cfg = if s.BreakPending cfg then 1 else 0 := rfl
  rw [total] at conserve
  generalize polls cfg s c masks = r at conserve progress ⊢
  obtain ⟨breaks, levels, kinds, atEnd⟩ := conserve
  refine ⟨by omega, by omega, kinds, fun often => ?_, ?_⟩
  · have left : r.2.1.breaksLeft cfg = 0 ∧ r.2.1.stack.opened.length = 0 := by
      rcases progress with enough | none
      · split at breaks <;> omega
      · exact none
    refine ⟨by omega, by omega, Stack.length_opened_eq_zero_iff.mp left.2, fun more => ?_⟩
    exact polls_over cfg more atEnd left.1 left.2
  · rintro source lx (rfl | ⟨offset, snapshot, rfl⟩) n done
    · exact (Lexer.at_ofSource source cfg).base done
    · exact (Lexer.at_resume_anywhere source cfg offset snapshot).base done

/-- A close can come before the line break, and kinds can be withheld in between. -/
theorem end_flushed_close_first :
    let s : State := ⟨⟨[3, 1], 255⟩, false, false⟩
    let masks : List KindSet :=
      [.ofList [.indentClose], .empty, .full, .full, .ofList [.lineBreak], .full]
    (Cursor.ofSource []).atEnd = true ∧
      s.stack.opened.length + 1 ≤ masks.countP KindSet.takesEnd ∧
      (polls {} s (.ofSource []) masks).1 =
        [some .indentClose, none, some .lineBreak, some .indentClose, none, none] ∧
      (polls {} s (.ofSource []) masks).2.1.stack.isBase = true :=
  ⟨rfl, by decide, by decide,
    ((end_flushed {} ⟨⟨[3, 1], 255⟩, false, false⟩ (c := .ofSource []) rfl
      [.ofList [.indentClose], .empty, .full, .full, .ofList [.lineBreak], .full]).2.2.2.1 (by decide)).2.2.1⟩

end Offside
