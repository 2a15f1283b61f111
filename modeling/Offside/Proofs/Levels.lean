import Offside.Proofs.Stride

/-!
# Open levels

What a scanner does to the open levels is read off what it decides: it opens one, ends the
innermost, or leaves them (`opens_reading`). So its state stays `Sound`: the levels are valid, and
as many fit as the variant says.
-/

namespace Offside

/-! ## The stack -/

namespace Stack

theorem valid_ofCapacity (n : Nat) : (ofCapacity n).Valid where
  ascending := by simp [ofCapacity, levels]
  bounded := by simp [ofCapacity, levels]
  fits := Nat.le_max_right n 1

theorem Valid.le_top {s : Stack} (h : s.Valid) : ∀ d ∈ s.levels, d ≤ s.top := by
  intro d hd
  have asc := h.ascending
  unfold levels at asc hd
  unfold top
  cases ho : s.opened with
  | nil => simpa [ho] using hd
  | cons t r =>
    rw [ho, List.reverse_cons, ← List.cons_append] at asc hd
    rcases List.mem_append.mp hd with hd | hd
    · exact Nat.le_of_lt ((List.pairwise_append.mp asc).2.2 d hd t List.mem_cons_self)
    · exact Nat.le_of_eq (List.mem_singleton.mp hd)

theorem push_eq_ok {s t : Stack} {d : Nat} (h : s.push d = .ok t) :
    s.top < d ∧ s.size < s.capacity ∧ t = { s with opened := d :: s.opened } := by
  unfold push at h
  split at h
  · cases h
  · split at h
    · cases h
    · cases h; exact ⟨by omega, by omega, rfl⟩

theorem Valid.push {s t : Stack} {d : Nat} (h : s.Valid) (hd : d ≤ deepest) (hp : s.push d = .ok t) :
    t.Valid := by
  obtain ⟨htop, hroom, rfl⟩ := push_eq_ok hp
  have levels_eq : levels { s with opened := d :: s.opened } = s.levels ++ [d] := by simp [levels]
  refine ⟨?_, ?_, ?_⟩
  · rw [levels_eq, List.pairwise_append]
    refine ⟨h.ascending, List.pairwise_singleton _ _, fun x hx y hy => ?_⟩
    rw [List.mem_singleton.mp hy]
    exact Nat.lt_of_le_of_lt (h.le_top x hx) htop
  · intro x hx
    rw [levels_eq] at hx
    rcases List.mem_append.mp hx with hx | hx
    · exact h.bounded x hx
    · rw [List.mem_singleton.mp hx]; exact hd
  · simp only [size, List.length_cons] at hroom ⊢; omega

theorem Valid.of_sublist {s t : Stack} (h : s.Valid) (fewer : t.opened.Sublist s.opened)
    (room : t.capacity = s.capacity) : t.Valid := by
  have sub : t.levels.Sublist s.levels := fewer.reverse.cons_cons 0
  refine ⟨h.ascending.sublist sub, fun d hd => h.bounded d (sub.subset hd), ?_⟩
  rw [room]
  exact Nat.le_trans (Nat.succ_le_succ fewer.length_le) h.fits

theorem Valid.pop {s : Stack} (h : s.Valid) : s.pop.Valid :=
  h.of_sublist (List.tail_sublist s.opened) rfl

theorem ofLevels?_eq_some_iff {ds : List Nat} {capacity : Nat} {s : Stack} :
    ofLevels? ds capacity = some s ↔
      s.levels = ds ∧ ds.Pairwise (· < ·) ∧ s.capacity = max (max capacity 1) s.size := by
  constructor
  · intro h
    unfold ofLevels? at h
    split at h
    · split at h
      · next asc =>
        cases h
        exact ⟨by simp [levels], isAscending_iff.mp asc, by simp [size]⟩
      · cases h
    · cases h
  · rintro ⟨rfl, asc, room⟩
    obtain ⟨opened, capacity'⟩ := s
    obtain rfl : capacity' = max (max capacity 1) (opened.length + 1) := room
    rw [← isAscending_iff, levels] at asc
    simp [levels, ofLevels?, asc]

end Stack

namespace Scan

/-! ## What a reading does to the open levels -/

def Opens (s t : Stack) : Verdict → Prop
  | .produced .indentOpen => ∃ d, d ≤ deepest ∧ s.push d = .ok t
  | .produced .indentClose => s.isBase = false ∧ t = s.pop
  | _ => t = s

theorem depth_le_deepest {cfg : Config} {r : List Char} {d : Nat} (h : cfg.measure r = .line d) :
    d ≤ deepest := by
  have : cfg.depthOf r ≤ deepest := Nat.min_le_right _ _
  unfold Config.measure at h
  split at h
  · split at h
    · cases h; exact this
    · cases h
  · split at h
    · cases h
    · cases h; exact this

theorem opens_readEnd (cfg : Config) (valid : KindSet) (s : State) :
    Opens s.stack (readEnd cfg valid s).next.state.stack (readEnd cfg valid s).sign := by
  unfold readEnd
  split
  · rfl
  · split
    · next h =>
      simp only [Bool.and_eq_true, Bool.not_eq_true'] at h
      exact ⟨h.1, rfl⟩
    · rfl

theorem opens_readLine (cfg : Config) (valid : KindSet) (s : State) {depth : Nat} (w r : List Char)
    (hd : depth ≤ deepest) :
    Opens s.stack (readLine cfg valid s depth w r).next.state.stack
      (readLine cfg valid s depth w r).sign := by
  unfold readLine
  split
  · split
    · cases hp : s.stack.push depth with
      | ok t => exact ⟨depth, hd, hp⟩
      | error e => rfl
    · rfl
  · split
    · next h =>
      have base : s.stack.isBase = false := by
        simp [Stack.isBase, opened_ne_nil_of_lt_top h]
      split
      · split <;> exact ⟨base, rfl⟩
      · rfl
    · split <;> rfl

theorem opens_reading (cfg : Config) (valid : KindSet) (a : Spot) :
    Opens a.state.stack (reading cfg valid a).next.state.stack (reading cfg valid a).sign := by
  unfold reading
  cases a.rest with
  | nil => exact opens_readEnd ..
  | cons x r =>
    simp only
    split
    · rfl
    · split
      · unfold readReturn; split <;> rfl
      · split
        · rfl
        · split
          · unfold readIndentation
            cases hm : cfg.measure a.rest with
            | blank => simp only; split <;> rfl
            | line depth =>
              exact opens_readLine cfg valid { a.state with atLineStart := false } _ _ (depth_le_deepest hm)
          · rfl

theorem Opens.valid {s t : Stack} {v : Verdict} (h : Opens s t v) (hs : s.Valid) :
    t.Valid ∧ t.capacity = s.capacity := by
  cases v with
  | produced k =>
    cases k with
    | indentOpen =>
      obtain ⟨d, hd, hp⟩ := h
      exact ⟨hs.push hd hp, by rw [(Stack.push_eq_ok hp).2.2]⟩
    | indentClose =>
      obtain ⟨-, rfl⟩ := h
      exact ⟨hs.pop, rfl⟩
    | lineBreak | sameLevel | comment =>
      obtain rfl : t = s := h
      exact ⟨hs, rfl⟩
  | refused | nothing =>
    obtain rfl : t = s := h
    exact ⟨hs, rfl⟩

end Scan

/-! ## Sound states -/

structure State.Sound (cfg : Config) (s : State) : Prop where
  valid : s.stack.Valid
  capacity : s.stack.capacity = max cfg.maxDepth 1

theorem sound_initial (cfg : Config) : (State.initial cfg.maxDepth).Sound cfg :=
  ⟨Stack.valid_ofCapacity _, rfl⟩

theorem sound_reading {cfg : Config} {a : Spot} (valid : KindSet) (h : a.state.Sound cfg) :
    (Scan.reading cfg valid a).next.state.Sound cfg := by
  obtain ⟨kept, capacity⟩ := (Scan.opens_reading cfg valid a).valid h.valid
  exact ⟨kept, capacity.trans h.capacity⟩

theorem sound_stride {cfg : Config} {a : Spot} (h : a.state.Sound cfg) :
    (stride cfg a).next.state.Sound cfg := by
  fun_induction stride cfg a with
  | case1 | case2 | case3 | case4 => exact sound_reading _ h
  | case5 a p hs hw ih => exact ih (sound_reading _ h)

end Offside
