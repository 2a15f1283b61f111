import Offside.Proofs.Levels
import Offside.Scan.Snapshot

/-!
# States and their snapshots

A snapshot holds the bottom levels of a state, as many as it has room for, and the flags, so reading
it gives the state cut to these levels (`restore_encode_cut`). Bytes are read if they are the
snapshot of some state, and then they are the only snapshot of it (`decode?_eq_some_iff`). All other
bytes give the initial state (`restore_exact`). A sound state that is not too tall is read as it was
(`restore_encode`), so among these equal snapshots come from equal states.
-/

namespace Offside

/-! ## The bottom of a stack -/

namespace Stack

/-- The lowest `n` levels. The document's is always among them. -/
def bottom (n : Nat) (s : Stack) : Stack := { s with opened := s.opened.drop (s.size - n) }

@[simp] theorem capacity_bottom (n : Nat) (s : Stack) : (s.bottom n).capacity = s.capacity := rfl

theorem Valid.bottom {s : Stack} (h : s.Valid) (n : Nat) : (s.bottom n).Valid :=
  h.of_sublist (List.drop_sublist _ _) rfl

section
variable {n : Nat} (pos : 0 < n) (s : Stack)
include pos

theorem levels_bottom : (s.bottom n).levels = s.levels.take n := by
  obtain ⟨n, rfl⟩ := Nat.exists_eq_succ_of_ne_zero (Nat.ne_of_gt pos)
  simp [levels, bottom, size, List.take_reverse]

theorem size_bottom : (s.bottom n).size = min s.size n := by
  simp only [size, bottom, List.length_drop]
  omega

theorem bottom_eq_iff : s.bottom n = s ↔ s.size ≤ n := by
  constructor
  · intro same
    have size := size_bottom pos s
    rw [same] at size
    omega
  · intro small
    rw [bottom, Nat.sub_eq_zero_of_le small, List.drop_zero]

end

def stairs (n : Nat) : Stack := ⟨(List.range' 1 n).reverse, n + 1⟩

theorem size_stairs (n : Nat) : (stairs n).size = n + 1 := by simp [stairs, size]

theorem valid_stairs {n : Nat} (h : n ≤ deepest) : (stairs n).Valid := by
  have levels : (stairs n).levels = List.range' 0 (n + 1) := by
    simp [stairs, Stack.levels, List.range'_succ]
  refine ⟨?_, ?_, Nat.le_of_eq (size_stairs n)⟩
  · rw [levels]
    exact List.pairwise_lt_range'
  · intro d hd
    rw [levels, List.mem_range'_1] at hd
    omega

end Stack

namespace Snapshot

/-- A state that a snapshot holds in full. What its levels have room for is not in a snapshot. -/
structure Storable (s : State) : Prop where
  ascending : s.stack.levels.Pairwise (· < ·)
  bounded : ∀ d ∈ s.stack.levels, d ≤ deepest
  small : s.stack.size ≤ maxLevels

theorem storable_of_valid {s : State} (h : s.stack.Valid) (small : s.stack.size ≤ maxLevels) :
    Storable s :=
  ⟨h.ascending, h.bounded, small⟩

theorem length_levels (s : Stack) : s.levels.length = s.size := by simp [Stack.levels, Stack.size]

/-! ## Words and flags -/

theorem ofWord_word {n : Nat} (h : n ≤ deepest) :
    ofWord (.ofNat n) (.ofNat (n / 0x100)) (.ofNat (n / 0x10000)) (.ofNat (n / 0x1000000)) = n := by
  simp only [ofWord, UInt8.toNat_ofNat', deepest] at *
  omega

theorem word_ofWord (a b c d : UInt8) : word (ofWord a b c d) = [a, b, c, d] := by
  have := a.toNat_lt
  have := b.toNat_lt
  have := c.toNat_lt
  have := d.toNat_lt
  simp only [word, ofWord, List.cons.injEq, ← UInt8.toNat_inj, UInt8.toNat_ofNat', and_true]
  omega

theorem ofWord_le (a b c d : UInt8) : ofWord a b c d ≤ deepest := by
  have := a.toNat_lt
  have := b.toNat_lt
  have := c.toNat_lt
  have := d.toNat_lt
  simp only [ofWord, deepest] at *
  omega

theorem length_words (levels : List Nat) : (levels.flatMap word).length = 4 * levels.length := by
  induction levels with
  | nil => rfl
  | cons d levels ih =>
    have one : (word d).length = 4 := rfl
    rw [List.flatMap_cons, List.length_append, ih, one, List.length_cons, Nat.mul_succ, Nat.add_comm]

theorem words?_append : ∀ (levels : List Nat) (r : List UInt8), (∀ d ∈ levels, d ≤ deepest) →
    words? levels.length (levels.flatMap word ++ r) = some (levels, r)
  | [], _, _ => rfl
  | d :: levels, r, h => by
    have ih := words?_append levels r fun x hx => h x (List.mem_cons_of_mem _ hx)
    simp only [List.flatMap_cons, word, List.cons_append, List.nil_append, List.length_cons, words?, ih,
      Option.map_some, ofWord_word (h d List.mem_cons_self)]

theorem words?_eq_some {n : Nat} {r rest : List UInt8} {levels : List Nat}
    (h : words? n r = some (levels, rest)) :
    levels.length = n ∧ (∀ d ∈ levels, d ≤ deepest) ∧ r = levels.flatMap word ++ rest := by
  fun_induction words? n r generalizing levels with
  | case1 r => cases h; exact ⟨rfl, nofun, rfl⟩
  | case2 n a b c d r ih =>
    obtain ⟨⟨below, r'⟩, hv, e⟩ := Option.map_eq_some_iff.mp h
    cases e
    obtain ⟨length, bounded, rfl⟩ := ih hv
    refine ⟨congrArg (· + 1) length, fun x hx => ?_, ?_⟩
    · rcases List.mem_cons.mp hx with rfl | hx
      · exact ofWord_le a b c d
      · exact bounded x hx
    · rw [List.flatMap_cons, word_ofWord]
      rfl
  | case3 => cases h

theorem ofFlag?_flag (f : Bool) : ofFlag? (flag f) = some f := by cases f <;> rfl

theorem flag_of_ofFlag? {b : UInt8} {f : Bool} (h : ofFlag? b = some f) : flag f = b := by
  unfold ofFlag? at h
  by_cases zero : b = 0
  · rw [if_pos zero] at h
    cases h
    exact zero.symm
  · by_cases one : b = 1
    · rw [if_neg zero, if_pos one] at h
      cases h
      exact one.symm
    · rw [if_neg zero, if_neg one] at h
      cases h

/-! ## Snapshots of states -/

theorem length_encode (s : State) : (encode s).length = 3 + 4 * min s.stack.size maxLevels := by
  have count : (s.stack.levels.take maxLevels).length = min s.stack.size maxLevels := by
    rw [List.length_take, length_levels, Nat.min_comm]
  simp only [encode, List.length_append, List.length_cons, List.length_nil, length_words, count]
  omega

/-- A snapshot of a state is one of the state cut to the levels that fit. -/
theorem encode_bottom (s : State) : encode { s with stack := s.stack.bottom maxLevels } = encode s := by
  have cut := Stack.levels_bottom (n := maxLevels) (by decide) s.stack
  simp only [encode, cut, List.take_take, Nat.min_self]

section
variable {s : State} {bytes : List UInt8} {capacity : Nat}

theorem encode_of_small (small : s.stack.size ≤ maxLevels) : encode s =
    UInt8.ofNat s.stack.levels.length :: s.stack.levels.flatMap word ++
      [flag s.atLineStart, flag s.finalBreakDone] := by
  have all : s.stack.levels.take maxLevels = s.stack.levels :=
    List.take_of_length_le (length_levels s.stack ▸ small)
  simp only [encode, all]

theorem decode?_encode (h : Storable s)
    (room : s.stack.capacity = max (max capacity 1) s.stack.size) :
    decode? capacity (encode s) = some s := by
  have count : (UInt8.ofNat s.stack.levels.length).toNat = s.stack.levels.length := by
    rw [UInt8.toNat_ofNat', length_levels]
    exact Nat.mod_eq_of_lt (Nat.lt_of_le_of_lt h.small (by decide))
  have stack := Stack.ofLevels?_eq_some_iff.mpr ⟨rfl, h.ascending, room⟩
  rw [encode_of_small h.small]
  simp only [List.cons_append, decode?, count, words?_append _ _ h.bounded, stack,
    ofFlag?_flag]
  rfl

theorem storable_of_decode? (h : decode? capacity bytes = some s) :
    Storable s ∧ s.stack.capacity = max (max capacity 1) s.stack.size ∧ encode s = bytes := by
  unfold decode? at h
  split at h
  · cases h
  · next n r =>
    split at h
    · next levels l f words =>
      obtain ⟨stack, hs, h⟩ := Option.bind_eq_some_iff.mp h
      obtain ⟨line, hl, h⟩ := Option.bind_eq_some_iff.mp h
      obtain ⟨final, hf, h⟩ := Option.bind_eq_some_iff.mp h
      cases h
      obtain ⟨count, bounded, rfl⟩ := words?_eq_some words
      obtain ⟨rfl, ascending, room⟩ := Stack.ofLevels?_eq_some_iff.mp hs
      have small : stack.size ≤ maxLevels := by
        rw [← length_levels, count]
        exact Nat.le_of_lt_succ n.toNat_lt
      refine ⟨⟨ascending, bounded, small⟩, room, ?_⟩
      rw [encode_of_small small, flag_of_ofFlag? hl, flag_of_ofFlag? hf, count, UInt8.ofNat_toNat]
      rfl
    · cases h

/-- Bytes are read as a state if they are its snapshot. There is room in it for the levels asked for
and for its own. -/
theorem decode?_eq_some_iff : decode? capacity bytes = some s ↔
    Storable s ∧ s.stack.capacity = max (max capacity 1) s.stack.size ∧ encode s = bytes := by
  constructor
  · exact storable_of_decode?
  · rintro ⟨storable, room, rfl⟩
    exact decode?_encode storable room

theorem restore_of_decode? (h : decode? capacity bytes = some s) : restore capacity bytes = s := by
  rw [restore, h, Option.getD_some]

theorem restore_of_none (h : decode? capacity bytes = none) :
    restore capacity bytes = .initial capacity := by
  rw [restore, h, Option.getD_none]

/-- Whatever the bytes are, the state they stand for has valid levels. -/
theorem restore_valid (capacity : Nat) (bytes : List UInt8) :
    (restore capacity bytes).stack.Valid ∧
      max capacity 1 ≤ (restore capacity bytes).stack.capacity := by
  cases h : decode? capacity bytes with
  | none =>
    rw [restore_of_none h]
    exact ⟨Stack.valid_ofCapacity capacity, Nat.le_refl _⟩
  | some s =>
    obtain ⟨storable, room, -⟩ := decode?_eq_some_iff.mp h
    rw [restore_of_decode? h, room]
    exact ⟨⟨storable.ascending, storable.bounded, room ▸ Nat.le_max_right _ _⟩, Nat.le_max_left _ _⟩

end

/-! ## Sound states -/

section
variable {cfg : Config} {s t : State}

theorem decode?_encode_of_sound (h : s.Sound cfg) (small : s.stack.size ≤ maxLevels) :
    decode? cfg.maxDepth (encode s) = some s := by
  apply decode?_encode (storable_of_valid h.valid small)
  rw [← h.capacity, Nat.max_eq_left h.valid.fits]

theorem restore_encode (h : s.Sound cfg) (small : s.stack.size ≤ maxLevels) :
    restore cfg.maxDepth (encode s) = s :=
  restore_of_decode? (decode?_encode_of_sound h small)

theorem encode_inj (hs : s.Sound cfg) (ht : t.Sound cfg) (smallS : s.stack.size ≤ maxLevels)
    (smallT : t.stack.size ≤ maxLevels) (h : encode s = encode t) : s = t := by
  rw [← restore_encode hs smallS, h, restore_encode ht smallT]

end

/-! ## Valid states and any bytes -/

section
variable {s : State} (h : s.stack.Valid)
include h

theorem restore_encode_of_valid (small : s.stack.size ≤ maxLevels) :
    restore s.stack.capacity (encode s) = s := by
  have pos : 1 ≤ s.stack.capacity := Nat.le_trans (Nat.succ_le_succ (Nat.zero_le _)) h.fits
  apply restore_of_decode?
  apply decode?_encode (storable_of_valid h small)
  rw [Nat.max_eq_left pos, Nat.max_eq_left h.fits]

theorem restore_encode_bottom :
    restore s.stack.capacity (encode s) = { s with stack := s.stack.bottom maxLevels } := by
  have small : (s.stack.bottom maxLevels).size ≤ maxLevels := by
    rw [Stack.size_bottom (by decide)]
    exact Nat.min_le_right _ _
  have cut := restore_encode_of_valid (s := { s with stack := s.stack.bottom maxLevels })
    (h.bottom maxLevels) small
  simpa only [encode_bottom, Stack.capacity_bottom] using cut

end

/-- A snapshot takes three bytes, and four for each level it holds. Read with the capacity of the
state, it gives the state with its bottom levels, as many as a snapshot holds, and all else
unchanged. So it gives the same state just if no level is lost, and equal snapshots without a lost
level are of equal states, where the capacities are equal. -/
theorem restore_encode_cut {s : State} (h : s.stack.Valid) :
    (encode s).length = 3 + 4 * min s.stack.size maxLevels ∧ (encode s).length ≤ maxBytes ∧
    (∃ kept : Stack, kept.levels = s.stack.levels.take (min s.stack.size maxLevels) ∧
      kept.capacity = s.stack.capacity ∧
      restore s.stack.capacity (encode s) = { s with stack := kept }) ∧
    (restore s.stack.capacity (encode s) = s ↔ s.stack.size ≤ maxLevels) ∧
    ∀ t : State, t.stack.Valid → t.stack.capacity = s.stack.capacity → s.stack.size ≤ maxLevels →
      t.stack.size ≤ maxLevels → encode s = encode t → s = t := by
  have pos : 0 < maxLevels := by decide
  have whole : restore s.stack.capacity (encode s) = s ↔ s.stack.size ≤ maxLevels := by
    rw [restore_encode_bottom h, ← Stack.bottom_eq_iff pos s.stack]
    constructor
    · intro same
      have stack := congrArg State.stack same
      exact stack
    · intro same
      rw [same]
  refine ⟨length_encode s, ?_, ⟨s.stack.bottom maxLevels, ?_, Stack.capacity_bottom _ _,
    restore_encode_bottom h⟩, whole, ?_⟩
  · rw [length_encode]
    have := Nat.min_le_right s.stack.size maxLevels
    simp only [maxLevels, maxBytes] at this ⊢
    omega
  · rw [Stack.levels_bottom pos, ← length_levels, Nat.min_comm, ← List.take_take, List.take_length]
  · intro t ht capacity smallS smallT same
    have back : restore t.stack.capacity (encode t) = t := by
      rw [restore_encode_bottom ht, (Stack.bottom_eq_iff pos t.stack).mpr smallT]
    rw [← whole.mpr smallS, same, ← capacity, back]

theorem restore_encode_stairs : (Stack.stairs 299).Valid ∧
    (encode ⟨Stack.stairs 299, true, false⟩).length = 1023 ∧
    restore 300 (encode ⟨Stack.stairs 299, true, false⟩) ≠ ⟨Stack.stairs 299, true, false⟩ := by
  have valid := Stack.valid_stairs (n := 299) (by decide)
  have size := Stack.size_stairs 299
  obtain ⟨length, -, -, whole, -⟩ := restore_encode_cut (s := ⟨Stack.stairs 299, true, false⟩) valid
  refine ⟨valid, ?_, ?_⟩
  · rw [length, size]
    decide
  · intro same
    have small := whole.mp same
    rw [size] at small
    exact absurd small (by decide)

/-- Bytes are accepted if they are the snapshot of a state that a snapshot holds in full. Then they
give its levels and flags, with room for as many levels as are asked for or as there are, and what
they give has these bytes for its snapshot. All other bytes give the initial state. Either way the
levels are valid. -/
theorem restore_exact (capacity : Nat) (bytes : List UInt8) :
    ((decode? capacity bytes).isSome = true ↔ ∃ s, Storable s ∧ encode s = bytes) ∧
    (∀ s, Storable s → encode s = bytes →
      (restore capacity bytes).stack.levels = s.stack.levels ∧
      (restore capacity bytes).atLineStart = s.atLineStart ∧
      (restore capacity bytes).finalBreakDone = s.finalBreakDone ∧
      (restore capacity bytes).stack.capacity = max (max capacity 1) s.stack.size ∧
      encode (restore capacity bytes) = bytes) ∧
    ((¬ ∃ s, Storable s ∧ encode s = bytes) → restore capacity bytes = .initial capacity) ∧
    (restore capacity bytes).stack.levels.head? = some 0 ∧
    (restore capacity bytes).stack.levels.Pairwise (· < ·) ∧
    (restore capacity bytes).stack.levels.length ≤ (restore capacity bytes).stack.capacity := by
  -- the capacity is not in the bytes, so a state may be given the one it is read with
  have read {s : State} (h : Storable s) (same : encode s = bytes) : decode? capacity bytes =
      some { s with stack := ⟨s.stack.opened, max (max capacity 1) s.stack.size⟩ } := by
    rw [decode?_eq_some_iff]
    exact ⟨⟨h.ascending, h.bounded, h.small⟩, rfl, same⟩
  have accepts : (decode? capacity bytes).isSome = true ↔ ∃ s, Storable s ∧ encode s = bytes := by
    rw [Option.isSome_iff_exists]
    constructor
    · rintro ⟨s, h⟩
      obtain ⟨storable, -, same⟩ := decode?_eq_some_iff.mp h
      exact ⟨s, storable, same⟩
    · rintro ⟨s, storable, same⟩
      exact ⟨_, read storable same⟩
  obtain ⟨valid, -⟩ := restore_valid capacity bytes
  refine ⟨accepts, ?_, ?_, rfl, valid.ascending, length_levels _ ▸ valid.fits⟩
  · intro s storable same
    rw [restore_of_decode? (read storable same)]
    exact ⟨rfl, rfl, rfl, rfl, same⟩
  · intro none
    apply restore_of_none
    rw [← accepts, Bool.not_eq_true, Option.isSome_eq_false_iff] at none
    exact Option.isNone_iff_eq_none.mp none

end Snapshot

end Offside
