import Offside.Proofs.Discipline

/-!
# Acceptable kinds

A step produces a kind only if the kind is acceptable and the variant has it (`within_tryScan`). It
looks at the variant's kinds alone, but that indentation is read wherever any kind for it is
acceptable (`tryScan_of_alike`). So the kinds of the variant do as well as all kinds. There are none
too many among them, since scanners of the variant produce them all (`exists_produced`).
-/

namespace Offside

def Verdict.Within (cfg : Config) (valid : KindSet) (v : Verdict) : Prop :=
  ∀ k, v = .produced k → valid.contains k = true ∧ cfg.kinds.contains k = true

/-- No difference that a scanner of the variant could see. -/
structure KindSet.Alike (cfg : Config) (v w : KindSet) : Prop where
  contains : ∀ k, cfg.kinds.contains k = true → v.contains k = w.contains k
  takes : v.takesIndentation = w.takesIndentation

theorem isSome_of_isCommentMark {cfg : Config} {x : Char} (h : cfg.isCommentMark x = true) :
    cfg.kinds.contains .comment = true := by
  rw [Config.isCommentMark, beq_iff_eq] at h
  rw [Config.contains_comment, h]
  rfl

namespace Scan

/-! ## Nothing else is produced -/

section
variable {cfg : Config} {valid : KindSet} {s : State} {c : Cursor}

theorem within_atEnd : (atEnd cfg valid s c).verdict.Within cfg valid := by
  intro k h
  unfold atEnd lineBreak at h
  split at h
  · next due =>
    cases h
    exact ⟨(Bool.and_eq_true _ _ ▸ due).2, rfl⟩
  · split at h
    · next opened =>
      cases h
      exact ⟨(Bool.and_eq_true _ _ ▸ opened).2, rfl⟩
    · cases h

theorem within_carriageReturn (hb : valid.contains .lineBreak = true) :
    (carriageReturn s c).verdict.Within cfg valid := by
  intro k h
  unfold carriageReturn lineBreak at h
  simp only at h
  split at h
  · cases h
    exact ⟨hb, rfl⟩
  · cases h

theorem within_line {depth : Nat} : (line cfg valid s depth c).verdict.Within cfg valid := by
  intro k h
  unfold line at h
  split at h
  · split at h
    · next opens =>
      cases hp : s.stack.push depth with
      | ok stack =>
        rw [hp] at h
        cases h
        exact ⟨opens, rfl⟩
      | error e =>
        rw [hp] at h
        cases h
    · cases h
  · split at h
    · split at h
      · next closes =>
        simp only at h
        split at h
        · cases h
          exact ⟨closes, rfl⟩
        · cases h
          exact ⟨closes, rfl⟩
      · cases h
    · split at h
      · next same =>
        rw [Bool.and_eq_true] at same
        cases h
        exact ⟨same.2, same.1⟩
      · cases h

theorem within_indentation : (indentation cfg valid s c).verdict.Within cfg valid := by
  unfold indentation
  cases cfg.measure c.rest with
  | blank => intro k h; cases h
  | line depth => exact within_line

theorem within_tryScan (cfg : Config) (valid : KindSet) (s : State) (c : Cursor) :
    (tryScan cfg valid s c).verdict.Within cfg valid := by
  unfold tryScan
  cases c.look with
  | none => exact within_atEnd
  | some x =>
    simp only
    split
    · next feed =>
      intro k h
      cases h
      exact ⟨feed.2, rfl⟩
    · split
      · next ret => exact within_carriageReturn ret.2.2
      · split
        · next mark =>
          intro k h
          cases h
          exact ⟨mark.2, isSome_of_isCommentMark mark.1⟩
        · split
          · exact within_indentation
          · intro k h; cases h

/-! ## Kinds that make no difference -/

variable {v w : KindSet} (h : v.Alike cfg w)
include h

theorem atEnd_of_alike : atEnd cfg v s c = atEnd cfg w s c := by
  unfold atEnd
  rw [h.contains .lineBreak rfl, h.contains .indentClose rfl]

theorem line_of_alike {depth : Nat} : line cfg v s depth c = line cfg w s depth c := by
  have same : (cfg.sameLevel && v.contains .sameLevel) = (cfg.sameLevel && w.contains .sameLevel) := by
    by_cases marked : cfg.sameLevel = true
    · rw [h.contains .sameLevel marked]
    · simp [marked]
  unfold line
  rw [h.contains .indentOpen rfl, h.contains .indentClose rfl, same]

theorem indentation_of_alike : indentation cfg v s c = indentation cfg w s c := by
  unfold indentation
  cases cfg.measure c.rest with
  | blank => rfl
  | line depth => exact line_of_alike h

theorem tryScan_of_alike : tryScan cfg v s c = tryScan cfg w s c := by
  have mark (x : Char) : (cfg.isCommentMark x = true ∧ v.contains .comment = true) =
      (cfg.isCommentMark x = true ∧ w.contains .comment = true) := by
    by_cases hx : cfg.isCommentMark x = true
    · rw [h.contains .comment (isSome_of_isCommentMark hx)]
    · simp [hx]
  unfold tryScan
  cases c.look with
  | none => exact atEnd_of_alike h
  | some x =>
    simp only [h.contains .lineBreak rfl, mark x, h.takes, indentation_of_alike h]

end

theorem alike_full (cfg : Config) : KindSet.full.Alike cfg cfg.kinds :=
  ⟨fun _ hk => hk.symm, rfl⟩

end Scan

/-! ## All kinds of a variant -/

theorem verdict_of_scan {cfg : Config} {valid : KindSet} {s : State} {c : Cursor} {k : Kind}
    (h : (scan cfg valid s c).1 = some k) : (tryScan cfg valid s c).verdict = .produced k := by
  unfold scan at h
  generalize tryScan cfg valid s c = o at h ⊢
  obtain ⟨v, t, d⟩ := o
  cases v <;> cases h
  rfl

namespace Call

def openLevel : Call := restore (Snapshot.encode ⟨⟨[1], 2⟩, true, false⟩)

def endLevel : Call := tryScan (.ofList [.indentClose]) (.ofSource [])

theorem after_openLevel (cfg : Config) (s : State) :
    after cfg s [openLevel] = ⟨⟨[1], max (max cfg.maxDepth 1) 2⟩, true, false⟩ := rfl

/-- There is room for a level now also in a variant that has none. -/
theorem after_endLevel (cfg : Config) (s : State) :
    after cfg s [openLevel, endLevel] = ⟨⟨[], max (max cfg.maxDepth 1) 2⟩, true, false⟩ := by
  rw [show after cfg s [openLevel, endLevel] = after cfg (after cfg s [openLevel]) [endLevel] from rfl,
    after_openLevel]
  simp [after, apply, endLevel, Offside.tryScan, Cursor.look, Cursor.rest, Cursor.ofSource, Cursor.atOffset,
    Point.atOffset, Point.seek, Scan.atEnd, KindSet.ofList, Stack.isBase, Stack.pop]

end Call

/-- Where neither a line break nor a comment is acceptable, a tab is a line of depth 1. -/
theorem tryScan_tab (cfg : Config) (valid : KindSet) (s : State)
    (noBreak : valid.contains .lineBreak = false) (noComment : valid.contains .comment = false)
    (takes : valid.takesIndentation = true) (start : s.atLineStart = true) :
    ∃ d, tryScan cfg valid s (.ofSource ['\t']) = Scan.line cfg valid { s with atLineStart := false } 1 d := by
  have measured : cfg.measure ['\t'] = .line 1 := by
    simp [Config.measure, Config.depthOf, Config.isIndent, deepest]
  have rest : (Cursor.ofSource ['\t']).rest = ['\t'] := rfl
  rw [tryScan]
  simp only [Cursor.look, rest, List.head?_cons, noBreak, noComment, takes, start, Bool.false_eq_true,
    and_false, if_false, and_true, if_true, Scan.indentation, measured]
  exact ⟨_, rfl⟩

theorem exists_produced {cfg : Config} {k : Kind} (h : cfg.kinds.contains k = true) :
    ∃ calls valid c,
      (tryScan cfg valid (Call.after cfg (.initial cfg.maxDepth) calls) c).verdict = .produced k := by
  have atEnd : (Cursor.ofSource []).look = none := rfl
  cases k with
  | lineBreak => exact ⟨[], .full, .ofSource ['\n'], rfl⟩
  | indentOpen =>
    refine ⟨[.openLevel, .endLevel], .ofList [.indentOpen], .ofSource ['\t'], ?_⟩
    have pushed : Stack.push 1 ⟨[], max (max cfg.maxDepth 1) 2⟩ =
        .ok ⟨[1], max (max cfg.maxDepth 1) 2⟩ := by
      rw [Stack.push, if_neg (by simp [Stack.top]), if_neg]
      show ¬ max (max cfg.maxDepth 1) 2 ≤ 1
      omega
    rw [Call.after_endLevel]
    obtain ⟨d, hd⟩ := tryScan_tab cfg (.ofList [.indentOpen])
      ⟨⟨[], max (max cfg.maxDepth 1) 2⟩, true, false⟩ rfl rfl rfl rfl
    rw [hd, Scan.line]
    simp only [pushed]
    rfl
  | indentClose =>
    refine ⟨[.openLevel], .ofList [.indentClose], .ofSource [], ?_⟩
    rw [Call.after_openLevel]
    simp [tryScan, atEnd, Scan.atEnd, KindSet.ofList, Stack.isBase]
  | sameLevel =>
    refine ⟨[.openLevel], .ofList [.sameLevel], .ofSource ['\t'], ?_⟩
    have marked : cfg.sameLevel = true := h
    rw [Call.after_openLevel]
    obtain ⟨d, hd⟩ := tryScan_tab cfg (.ofList [.sameLevel])
      ⟨⟨[1], max (max cfg.maxDepth 1) 2⟩, true, false⟩ rfl rfl rfl rfl
    rw [hd, Scan.line]
    simp [Stack.top, marked, KindSet.ofList]
  | comment =>
    obtain ⟨m, hm⟩ := Option.isSome_iff_exists.mp h
    refine ⟨[], .ofList [.comment], .ofSource [m], ?_⟩
    have pos : ¬ m.utf8Size ≤ 0 := Nat.not_le.mpr m.utf8Size_pos
    have look : (Cursor.ofSource [m]).look = some m := by
      simp [Cursor.look, Cursor.rest, Cursor.ofSource, Cursor.atOffset, Point.atOffset, Point.seek, pos]
    simp [tryScan, look, KindSet.ofList, Config.isCommentMark, hm, Scan.comment]

/-- A step produces nothing but an acceptable kind of the variant, whether or not refusals are told
apart. Where all kinds are acceptable, it does what it does where those of the variant are. And each
kind of the variant is produced by some scanner of the variant. -/
theorem produced_kinds (cfg : Config) :
    (∀ valid s c k, (tryScan cfg valid s c).verdict = .produced k ∨ (scan cfg valid s c).1 = some k →
      valid.contains k = true ∧ cfg.kinds.contains k = true) ∧
    (∀ s c, tryScan cfg .full s c = tryScan cfg cfg.kinds s c) ∧
    ∀ k, cfg.kinds.contains k = true ↔ ∃ calls valid c,
      (tryScan cfg valid (Call.after cfg (.initial cfg.maxDepth) calls) c).verdict = .produced k := by
  have within valid s c k : (tryScan cfg valid s c).verdict = .produced k →
      valid.contains k = true ∧ cfg.kinds.contains k = true := Scan.within_tryScan cfg valid s c k
  refine ⟨?_, ?_, ?_⟩
  · intro valid s c k h
    rcases h with h | h
    · exact within valid s c k h
    · exact within valid s c k (verdict_of_scan h)
  · intro s c
    exact Scan.tryScan_of_alike (Scan.alike_full cfg)
  · intro k
    constructor
    · exact exists_produced
    · rintro ⟨calls, valid, c, h⟩
      exact (within valid _ c k h).2

end Offside
