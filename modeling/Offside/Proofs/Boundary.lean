import Offside.Text.Point

/-!
# Cutting a text at an offset

A text can be cut at an offset exactly if a whole number of characters stands before it, and then
in one way only (`append_inj_of_byteLength`). `takeBytes?` and `dropBytes?` succeed at these
boundaries alone, and `Point.atOffset` stops at them.
-/

namespace Offside

def IsBoundary (n : Nat) (text : List Char) : Prop := ∃ u r, text = u ++ r ∧ byteLength u = n

theorem byteLength_eq_zero_iff {u : List Char} : byteLength u = 0 ↔ u = [] := by
  cases u with
  | nil => simp
  | cons c u => have := c.utf8Size_pos; simp; omega

theorem append_split_of_byteLength_le : ∀ {u v r t : List Char}, u ++ r = v ++ t →
    byteLength u ≤ byteLength v → ∃ w, v = u ++ w ∧ r = w ++ t
  | [], v, _, _, h, _ => ⟨v, rfl, h⟩
  | c :: u, [], _, _, _, e => by have := c.utf8Size_pos; simp at e; omega
  | c :: u, d :: v, r, t, h, e => by
    obtain ⟨rfl, htail⟩ := List.cons.inj h
    obtain ⟨w, rfl, rfl⟩ := append_split_of_byteLength_le htail (by simpa using e)
    exact ⟨w, rfl, rfl⟩

theorem append_inj_of_byteLength {u v r t : List Char} (h : u ++ r = v ++ t)
    (e : byteLength u = byteLength v) : u = v ∧ r = t := by
  obtain ⟨w, rfl, rfl⟩ := append_split_of_byteLength_le h (Nat.le_of_eq e)
  obtain rfl := byteLength_eq_zero_iff.mp (show byteLength w = 0 by simpa using e)
  simp

theorem append_split_of_cons {w r v t : List Char} {x : Char} (h : w ++ r = v ++ x :: t) :
    (∃ a, v = w ++ a ∧ r = a ++ x :: t) ∨ ∃ a, w = v ++ x :: a ∧ t = a ++ r := by
  rcases List.append_eq_append_iff.mp h with ⟨a, hv, hr⟩ | ⟨a, hw, ht⟩
  · exact .inl ⟨a, hv, hr⟩
  · rcases List.cons_eq_append_iff.mp ht with ⟨rfl, rfl⟩ | ⟨a, rfl, rfl⟩
    · exact .inl ⟨[], by simpa using hw.symm, rfl⟩
    · exact .inr ⟨a, hw, rfl⟩

theorem exists_char_of_lt {n : Nat} : ∀ {text : List Char}, n < byteLength text →
    ∃ u x r, text = u ++ x :: r ∧ byteLength u ≤ n ∧ n < byteLength (u ++ [x])
  | [], h => absurd h (Nat.not_lt_zero n)
  | c :: text, h => by
    by_cases hc : n < c.utf8Size
    · exact ⟨[], c, text, rfl, Nat.zero_le n, by simpa using hc⟩
    · rw [byteLength_cons] at h
      have more : n - c.utf8Size < byteLength text := by omega
      obtain ⟨u, x, r, rfl, le, lt⟩ := exists_char_of_lt more
      exact ⟨c :: u, x, r, rfl, by rw [byteLength_cons]; omega,
        by rw [List.cons_append, byteLength_cons]; omega⟩

/-! ## Taking and dropping bytes -/

theorem takeBytes?_append (u r : List Char) : takeBytes? (byteLength u) (u ++ r) = some u := by
  induction u with
  | nil => simp [takeBytes?]
  | cons c u ih =>
    obtain ⟨k, hk⟩ := Nat.exists_eq_succ_of_ne_zero (Nat.pos_iff_ne_zero.mp c.utf8Size_pos)
    have e : byteLength (c :: u) = (k + byteLength u) + 1 := by rw [byteLength_cons, hk]; omega
    have d : k + byteLength u + 1 - c.utf8Size = byteLength u := by omega
    rw [e, List.cons_append, takeBytes?, if_pos (by omega), d, ih]
    rfl

theorem dropBytes?_append (u r : List Char) : dropBytes? (byteLength u) (u ++ r) = some r := by
  induction u with
  | nil => simp [dropBytes?]
  | cons c u ih =>
    obtain ⟨k, hk⟩ := Nat.exists_eq_succ_of_ne_zero (Nat.pos_iff_ne_zero.mp c.utf8Size_pos)
    have e : byteLength (c :: u) = (k + byteLength u) + 1 := by rw [byteLength_cons, hk]; omega
    have d : k + byteLength u + 1 - c.utf8Size = byteLength u := by omega
    rw [e, List.cons_append, dropBytes?, if_pos (by omega), d, ih]

theorem takeBytes?_eq_some_iff {n : Nat} {text u : List Char} :
    takeBytes? n text = some u ↔ ∃ r, text = u ++ r ∧ byteLength u = n := by
  refine ⟨fun h => ?_, fun ⟨r, e, hn⟩ => by rw [e, ← hn]; exact takeBytes?_append u r⟩
  induction text generalizing n u with
  | nil =>
    cases n with
    | zero => simp only [takeBytes?, Option.some.injEq] at h; subst h; exact ⟨[], rfl, rfl⟩
    | succ n => cases h
  | cons c text ih =>
    cases n with
    | zero => simp only [takeBytes?, Option.some.injEq] at h; subst h; exact ⟨c :: text, rfl, rfl⟩
    | succ n =>
      rw [takeBytes?] at h
      split at h
      · next hc =>
        obtain ⟨v, hv, rfl⟩ := Option.map_eq_some_iff.mp h
        obtain ⟨r, rfl, hn⟩ := ih hv
        exact ⟨r, rfl, by rw [byteLength_cons, hn]; omega⟩
      · cases h

theorem dropBytes?_eq_some_iff {n : Nat} {text r : List Char} :
    dropBytes? n text = some r ↔ ∃ u, text = u ++ r ∧ byteLength u = n := by
  refine ⟨fun h => ?_, fun ⟨u, e, hn⟩ => by rw [e, ← hn]; exact dropBytes?_append u r⟩
  induction text generalizing n with
  | nil =>
    cases n with
    | zero => simp only [dropBytes?, Option.some.injEq] at h; subst h; exact ⟨[], rfl, rfl⟩
    | succ n => cases h
  | cons c text ih =>
    cases n with
    | zero => simp only [dropBytes?, Option.some.injEq] at h; subst h; exact ⟨[], rfl, rfl⟩
    | succ n =>
      rw [dropBytes?] at h
      split at h
      · next hc =>
        obtain ⟨u, rfl, hn⟩ := ih h
        exact ⟨c :: u, rfl, by rw [byteLength_cons, hn]; omega⟩
      · cases h

theorem takeBytes?_eq_none_iff {n : Nat} {text : List Char} :
    takeBytes? n text = none ↔ ¬ IsBoundary n text := by
  rw [Option.eq_none_iff_forall_not_mem]
  constructor
  · rintro h ⟨u, r, e, hn⟩
    exact h u (takeBytes?_eq_some_iff.mpr ⟨r, e, hn⟩)
  · intro h u hu
    obtain ⟨r, e, hn⟩ := takeBytes?_eq_some_iff.mp hu
    exact h ⟨u, r, e, hn⟩

theorem dropBytes?_eq_none_iff {n : Nat} {text : List Char} :
    dropBytes? n text = none ↔ ¬ IsBoundary n text := by
  rw [Option.eq_none_iff_forall_not_mem]
  constructor
  · rintro h ⟨u, r, e, hn⟩
    exact h r (dropBytes?_eq_some_iff.mpr ⟨u, e, hn⟩)
  · intro h r hr
    obtain ⟨u, e, hn⟩ := dropBytes?_eq_some_iff.mp hr
    exact h ⟨u, r, e, hn⟩

theorem slice?_append (v w r : List Char) :
    slice? (v ++ (w ++ r)) (byteLength v) (byteLength (v ++ w)) = some w := by
  have le : byteLength v ≤ byteLength (v ++ w) := by simp
  have d : byteLength (v ++ w) - byteLength v = byteLength w := by simp
  rw [slice?, if_pos le, dropBytes?_append, Option.bind_some, d, takeBytes?_append]

/-! ## Places at boundaries -/

theorem seek_append (limit o : Nat) (u r : List Char) (h : limit = o + byteLength u) :
    Point.seek limit o (u ++ r) = ⟨limit, r⟩ := by
  induction u generalizing o with
  | nil =>
    cases r with
    | nil => simp [Point.seek, h]
    | cons c r =>
      have := c.utf8Size_pos
      have : ¬ o + c.utf8Size ≤ limit := by simp at h; omega
      rw [List.nil_append, Point.seek, if_neg this, h]; rfl
  | cons c u ih =>
    rw [byteLength_cons] at h
    rw [List.cons_append, Point.seek, if_pos (by omega)]
    exact ih _ (by omega)

theorem atOffset_append (u r : List Char) :
    Point.atOffset (u ++ r) (byteLength u) = ⟨byteLength u, r⟩ :=
  seek_append _ 0 u r (Nat.zero_add _).symm

end Offside
