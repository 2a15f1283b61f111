import Offside.Proofs.Discipline

/-!
# Refusals

A step refuses exactly the lines that are deeper than the open level when no level fits any more
(`tryScan_refused_iff`). It has read the indentation then and no longer stands at a line start. While
this lasts a scanner finds nothing but comments and line breaks (`tryScan_inside`), so neither kinds for
indentation nor another refusal come from it before the line ends (`refusal_contained`).
-/

namespace Offside

namespace Scan

/-- At the character `x` a line starts, and `x` is nothing acceptable by itself. -/
structure Meets (cfg : Config) (valid : KindSet) (s : State) (x : Char) : Prop where
  noTerminator : valid.contains .lineBreak = true → x ≠ '\n' ∧ ¬ (x = '\r' ∧ cfg.crlf = true)
  noComment : valid.contains .comment = true → cfg.isCommentMark x = false
  atLineStart : s.atLineStart = true

/-- The text ahead starts with the indentation of a line of the given depth, which is deeper than the
open level, and no level fits any more. -/
structure TooDeep (cfg : Config) (valid : KindSet) (s : State) (rest : List Char) (depth : Nat) : Prop where
  reached : ∃ x ∈ rest.head?, Meets cfg valid s x
  acceptable : valid.contains .indentOpen = true
  notBlank : ∀ x ∈ (rest.dropWhile cfg.isIndent).head?, x ≠ '\n' ∧ cfg.isCommentMark x = false
  tabs : depth = min ((rest.takeWhile cfg.isIndent).count '\t') deepest
  deeper : s.stack.top < depth
  full : s.stack.size = s.stack.capacity

section
variable {cfg : Config} {valid : KindSet} {s : State} {c : Cursor} {x : Char} {e : Stack.Error} {depth : Nat}

/-! ## When a step refuses -/

theorem tryScan_of_meets (h : Meets cfg valid s x) (hx : c.look = some x)
    (takes : valid.takesIndentation = true) : tryScan cfg valid s c = indentation cfg valid s c := by
  have noFeed : ¬ (x = '\n' ∧ valid.contains .lineBreak = true) := by
    rintro ⟨rfl, hb⟩
    exact (h.noTerminator hb).1 rfl
  have noReturn : ¬ (x = '\r' ∧ cfg.crlf = true ∧ valid.contains .lineBreak = true) := by
    rintro ⟨rfl, crlf, hb⟩
    exact (h.noTerminator hb).2 ⟨rfl, crlf⟩
  have noMark : ¬ (cfg.isCommentMark x = true ∧ valid.contains .comment = true) := by
    rintro ⟨mark, hc⟩
    rw [h.noComment hc] at mark
    cases mark
  rw [tryScan]
  simp only [hx]
  rw [if_neg noFeed, if_neg noReturn, if_neg noMark, if_pos ⟨h.atLineStart, takes⟩]

theorem meets_of_refused (h : (tryScan cfg valid s c).verdict = .refused e) :
    ∃ x, c.look = some x ∧ Meets cfg valid s x ∧ valid.takesIndentation = true := by
  rw [tryScan] at h
  cases hx : c.look with
  | none =>
    simp only [hx, atEnd, lineBreak] at h
    split at h
    · cases h
    · split at h <;> cases h
  | some x =>
    simp only [hx] at h
    split at h
    · cases h
    · next noFeed =>
      split at h
      · unfold carriageReturn lineBreak at h
        simp only at h
        split at h <;> cases h
      · next noReturn =>
        split at h
        · cases h
        · next noMark =>
          split at h
          · next start =>
            refine ⟨x, rfl, ⟨?_, ?_, start.1⟩, start.2⟩
            · intro hb
              exact ⟨fun feed => noFeed ⟨feed, hb⟩, fun ret => noReturn ⟨ret.1, ret.2, hb⟩⟩
            · intro hc
              exact Bool.eq_false_iff.mpr fun mark => noMark ⟨mark, hc⟩
          · cases h

theorem measure_eq_line_iff {rest : List Char} (pos : 0 < depth) : cfg.measure rest = .line depth ↔
    (∀ y ∈ (rest.dropWhile cfg.isIndent).head?, y ≠ '\n' ∧ cfg.isCommentMark y = false) ∧
      depth = cfg.depthOf rest := by
  rw [Config.measure]
  cases rest.dropWhile cfg.isIndent with
  | nil =>
    by_cases tabs : 0 < cfg.depthOf rest
    · simp only [tabs, if_true, Config.Measure.line.injEq, List.head?_nil]
      constructor
      · intro h
        exact ⟨by simp, h.symm⟩
      · intro h
        exact h.2.symm
    · have zero : ¬ depth = cfg.depthOf rest := by omega
      simp [tabs, zero]
  | cons y r =>
    by_cases blank : (y == '\n' || cfg.isCommentMark y) = true
    · simp only [blank, if_true, List.head?_cons, Option.mem_some, forall_eq']
      constructor
      · intro h
        cases h
      · intro h
        obtain ⟨feed, mark⟩ := h.1
        simp [feed, mark] at blank
    · have plain : y ≠ '\n' ∧ cfg.isCommentMark y = false := by simpa using blank
      simp only [blank, Bool.false_eq_true, if_false, Config.Measure.line.injEq, List.head?_cons,
        Option.mem_some, forall_eq']
      constructor
      · intro h
        exact ⟨plain, h.symm⟩
      · intro h
        exact h.2.symm

theorem line_refused_iff : (line cfg valid s depth c).verdict = .refused e ↔
    s.stack.top < depth ∧ valid.contains .indentOpen = true ∧ s.stack.push depth = .error e := by
  unfold line
  by_cases deeper : s.stack.top < depth
  · by_cases opens : valid.contains .indentOpen = true
    · cases s.stack.push depth <;> simp [deeper, opens]
    · simp [deeper, opens]
  · simp only [deeper, if_false, false_and, iff_false]
    split
    · split
      · split <;> nofun
      · nofun
    · split <;> nofun

theorem indentation_refused_iff : (indentation cfg valid s c).verdict = .refused e ↔
    ∃ depth, cfg.measure c.rest = .line depth ∧ s.stack.top < depth ∧
      valid.contains .indentOpen = true ∧ s.stack.push depth = .error e := by
  unfold indentation
  cases hm : cfg.measure c.rest with
  | blank => simp
  | line depth =>
    simp only [line_refused_iff, Config.Measure.line.injEq, exists_eq_left']

end

end Scan

theorem Stack.Valid.push_eq_error_iff {s : Stack} {depth : Nat} {e : Error} (h : s.Valid)
    (deeper : s.top < depth) : s.push depth = .error e ↔ s.size = s.capacity ∧ e = .full depth s.capacity := by
  rw [Stack.push, if_neg (Nat.not_le.mpr deeper)]
  have fits := h.fits
  by_cases full : s.capacity ≤ s.size
  · have eq : s.size = s.capacity := Nat.le_antisymm fits full
    simp [eq, eq_comm]
  · have ne : s.size ≠ s.capacity := fun eq => full (Nat.le_of_eq eq.symm)
    simp [full, ne]

section
variable {cfg : Config} {valid : KindSet} {s : State} {c : Cursor} {e : Stack.Error}

theorem takesIndentation_of_opens (h : valid.contains .indentOpen = true) :
    valid.takesIndentation = true := by
  simp [KindSet.takesIndentation, h]

theorem tryScan_refused_iff (hs : s.stack.Valid) : (tryScan cfg valid s c).verdict = .refused e ↔
    ∃ depth, Scan.TooDeep cfg valid s c.rest depth ∧ e = .full depth s.stack.capacity := by
  constructor
  · intro h
    obtain ⟨x, hx, meets, takes⟩ := Scan.meets_of_refused h
    rw [Scan.tryScan_of_meets meets hx takes, Scan.indentation_refused_iff] at h
    obtain ⟨depth, measured, deeper, acceptable, pushed⟩ := h
    obtain ⟨notBlank, tabs⟩ := (Scan.measure_eq_line_iff (Nat.zero_lt_of_lt deeper)).mp measured
    obtain ⟨full, he⟩ := (hs.push_eq_error_iff deeper).mp pushed
    exact ⟨depth, ⟨⟨x, hx, meets⟩, acceptable, notBlank, tabs, deeper, full⟩, he⟩
  · rintro ⟨depth, h, rfl⟩
    obtain ⟨x, hx, meets⟩ := h.reached
    rw [Scan.tryScan_of_meets meets hx (takesIndentation_of_opens h.acceptable), Scan.indentation_refused_iff]
    have measured := (Scan.measure_eq_line_iff (Nat.zero_lt_of_lt h.deeper)).mpr ⟨h.notBlank, h.tabs⟩
    have pushed := (hs.push_eq_error_iff h.deeper).mpr ⟨h.full, rfl⟩
    exact ⟨depth, measured, h.deeper, h.acceptable, pushed⟩

/-! ## What a refusal leaves -/

theorem state_of_refused (h : (tryScan cfg valid s c).verdict = .refused e) :
    (tryScan cfg valid s c).state = { s with atLineStart := false } := by
  obtain ⟨verdict, state⟩ := Scan.tryScan_eq_reading cfg valid s c
  rw [verdict] at h
  obtain ⟨_, _, _, _, reads⟩ := Scan.reading_of_refused h
  rw [state, reads]

theorem here_of_refused (h : (tryScan cfg valid s c).verdict = .refused e) :
    (tryScan cfg valid s c).cursor.here =
      c.here.past (c.rest.takeWhile cfg.isIndent) (c.rest.dropWhile cfg.isIndent) := by
  obtain ⟨x, hx, meets, takes⟩ := Scan.meets_of_refused h
  rw [Scan.tryScan_of_meets meets hx takes, Scan.indentation_here, Cursor.here_advanceWhile]

/-! ## Inside a line -/

theorem tryScan_inside (cfg : Config) (valid : KindSet) (flag : s.atLineStart = false)
    (inText : c.atEnd = false) :
    (tryScan cfg valid s c).verdict = .produced .lineBreak ∨
      ((tryScan cfg valid s c).verdict = .nothing ∨ (tryScan cfg valid s c).verdict = .produced .comment) ∧
        (tryScan cfg valid s c).state = s := by
  have unset : { s with atLineStart := false } = s := by rw [← flag]
  rw [tryScan]
  cases hx : c.look with
  | none =>
    rw [Cursor.look, List.head?_eq_none_iff] at hx
    rw [Cursor.atEnd, hx] at inText
    cases inText
  | some x =>
    simp only
    split
    · exact .inl rfl
    · split
      · unfold Scan.carriageReturn
        simp only
        split
        · exact .inl rfl
        · exact .inr ⟨.inl rfl, rfl⟩
      · split
        · exact .inr ⟨.inr rfl, unset⟩
        · rw [if_neg (by simp [flag])]
          exact .inr ⟨.inl rfl, rfl⟩

def Call.InText : Call → Prop
  | .tryScan _ c | .scan _ c => c.atEnd = false
  | .restore _ | .reset => False

theorem apply_inside (cfg : Config) {call : Call} (flag : s.atLineStart = false) (inText : call.InText) :
    (call.apply cfg s).1 = .produced .lineBreak ∨
      ((call.apply cfg s).1 = .nothing ∨ (call.apply cfg s).1 = .produced .comment) ∧
        (call.apply cfg s).2 = s := by
  cases call with
  | tryScan valid c => exact tryScan_inside cfg valid flag inText
  | scan valid c =>
    have inside := tryScan_inside cfg valid flag inText
    simp only [Call.apply, scan]
    generalize tryScan cfg valid s c = o at inside
    obtain ⟨v, t, d⟩ := o
    cases v with
    | produced k => exact inside
    | nothing => exact inside
    | refused e =>
      rcases inside with h | ⟨h | h, -⟩ <;> cases h
  | restore | reset => cases inText

theorem after_inside (flag : s.atLineStart = false) : ∀ {calls : List Call},
    (∀ call ∈ calls, call.InText) → .produced .lineBreak ∉ Call.verdicts cfg s calls →
    (∀ v ∈ Call.verdicts cfg s calls, v = .nothing ∨ v = .produced .comment) ∧ Call.after cfg s calls = s
  | [], _, _ => ⟨nofun, rfl⟩
  | call :: calls, inText, noBreak => by
    rw [Call.verdicts, List.mem_cons, not_or] at noBreak
    rcases apply_inside cfg flag (inText call List.mem_cons_self) with ends | ⟨first, same⟩
    · exact absurd ends.symm noBreak.1
    · have rest := noBreak.2
      rw [same] at rest
      obtain ⟨verdicts, after⟩ :=
        after_inside flag (fun c hc => inText c (List.mem_cons_of_mem call hc)) rest
      rw [Call.verdicts, Call.after, same]
      refine ⟨?_, after⟩
      intro v hv
      rcases List.mem_cons.mp hv with rfl | hv
      · exact first
      · exact verdicts v hv

end

/-- A step refuses just the lines that are too deep, each for its depth and the room there is. Of what a
scanner remembers, a refusal takes back the line start and leaves the levels alone, and the scanner
stands behind the indentation then. From there on, wherever it is asked in a text and for
whatever kinds, it finds nothing but comments until a line break, and its state stays as it is. -/
theorem refusal_contained (cfg : Config) (valid : KindSet) {s : State} (c : Cursor) (hs : s.stack.Valid) :
    (∀ e, (tryScan cfg valid s c).verdict = .refused e ↔
      ∃ depth, Scan.TooDeep cfg valid s c.rest depth ∧ e = .full depth s.stack.capacity) ∧
    ∀ e, (tryScan cfg valid s c).verdict = .refused e →
      (tryScan cfg valid s c).state = { s with atLineStart := false } ∧
      (tryScan cfg valid s c).cursor.position = c.position + byteLength (c.rest.takeWhile cfg.isIndent) ∧
      (tryScan cfg valid s c).cursor.rest = c.rest.dropWhile cfg.isIndent ∧
      ∀ calls, (∀ call ∈ calls, call.InText) →
        .produced .lineBreak ∉ Call.verdicts cfg (tryScan cfg valid s c).state calls →
        (∀ v ∈ Call.verdicts cfg (tryScan cfg valid s c).state calls,
          v = .nothing ∨ v = .produced .comment) ∧
        Call.after cfg (tryScan cfg valid s c).state calls = (tryScan cfg valid s c).state := by
  refine ⟨fun e => tryScan_refused_iff hs, fun e h => ?_⟩
  have state := state_of_refused h
  have here := here_of_refused h
  refine ⟨state, congrArg Point.offset here, congrArg Point.rest here, fun calls inText noBreak => ?_⟩
  exact after_inside (by rw [state]) inText noBreak

/-- A second level does not fit, and the tabs behind the refusal open none either. -/
theorem refusal_contained_second_level :
    let s : State := ⟨⟨[1], 2⟩, true, false⟩
    let c : Cursor := .ofSource "\t\tc\t\td".toList
    let o := tryScan { maxDepth := 2 } .full s c
    let calls := [Call.tryScan .full (.moveTo 3 o.cursor), .scan (.ofList [.indentOpen]) (.moveTo 4 o.cursor)]
    s.stack.Valid ∧ o.verdict = .refused (.full 2 2) ∧ o.cursor.rest = "c\t\td".toList ∧
      Call.verdicts { maxDepth := 2 } o.state calls = [.nothing, .nothing] ∧
      Call.after { maxDepth := 2 } o.state calls = ⟨⟨[1], 2⟩, false, false⟩ := by
  intro s c o calls
  have valid : s.stack.Valid := ⟨by decide, by decide, by decide⟩
  have refused : o.verdict = .refused (.full 2 2) := by decide +kernel
  have contained := (refusal_contained { maxDepth := 2 } .full c valid).2 _ refused
  refine ⟨valid, refused, contained.2.2.1, by decide +kernel, ?_⟩
  have after := contained.2.2.2 calls (by simp [calls, Call.InText]; decide +kernel) (by decide +kernel)
  exact after.2.trans contained.1

end Offside
