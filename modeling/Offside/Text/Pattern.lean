/-!
# Regular patterns

`Pattern.Matches` says which texts a pattern describes. `longest` looks for the longest initial
part of a text that does, by derivatives: what may follow the characters read so far is again a
pattern. `longest_eq_some_iff` and `longest_eq_none_iff` tie the two together.
-/

namespace Offside

inductive Pattern where
  | never
  | empty
  | one (p : Char → Bool)
  | seq (a b : Pattern)
  | alt (a b : Pattern)
  | many (a : Pattern)

namespace Pattern

inductive Matches : Pattern → List Char → Prop
  | empty : Matches .empty []
  | one {p c} : p c = true → Matches (.one p) [c]
  | seq {a b u v} : Matches a u → Matches b v → Matches (.seq a b) (u ++ v)
  | altLeft {a b u} : Matches a u → Matches (.alt a b) u
  | altRight {a b u} : Matches b u → Matches (.alt a b) u
  | manyNil {a} : Matches (.many a) []
  | manyCons {a u v} : Matches a u → Matches (.many a) v → Matches (.many a) (u ++ v)

/-! ## Ways to write patterns -/

def char (c : Char) : Pattern := .one (· == c)

def text : List Char → Pattern
  | [] => .empty
  | c :: r => .seq (char c) (text r)

def optional (a : Pattern) : Pattern := .alt a .empty

def some1 (a : Pattern) : Pattern := .seq a (.many a)

/-! ## Derivatives

`seq'` and `alt'` describe the same texts as `seq` and `alt` and drop the parts that can no longer
match, so that derivatives stay small. -/

def seq' : Pattern → Pattern → Pattern
  | .never, _ => .never
  | .empty, b => b
  | a, b => .seq a b

def alt' : Pattern → Pattern → Pattern
  | .never, b => b
  | a, .never => a
  | a, b => .alt a b

def nullable : Pattern → Bool
  | .never => false
  | .empty => true
  | .one _ => false
  | .seq a b => a.nullable && b.nullable
  | .alt a b => a.nullable || b.nullable
  | .many _ => true

def deriv (c : Char) : Pattern → Pattern
  | .never => .never
  | .empty => .never
  | .one p => if p c then .empty else .never
  | .seq a b =>
    if a.nullable then alt' (seq' (a.deriv c) b) (b.deriv c) else seq' (a.deriv c) b
  | .alt a b => alt' (a.deriv c) (b.deriv c)
  | .many a => seq' (a.deriv c) (.many a)

def longest : Pattern → List Char → Option Nat
  | .never, _ => none
  | p, [] => if p.nullable then some 0 else none
  | p, c :: r =>
    match longest (p.deriv c) r with
    | some n => some (n + 1)
    | none => if p.nullable then some 0 else none

/-! ## What derivatives match -/

theorem not_matches_never {u : List Char} : ¬ Matches .never u := nofun

theorem matches_seq_iff {a b : Pattern} {w : List Char} :
    Matches (.seq a b) w ↔ ∃ u v, w = u ++ v ∧ Matches a u ∧ Matches b v :=
  ⟨fun | .seq hu hv => ⟨_, _, rfl, hu, hv⟩, fun ⟨_, _, e, hu, hv⟩ => e ▸ .seq hu hv⟩

theorem matches_alt_iff {a b : Pattern} {w : List Char} :
    Matches (.alt a b) w ↔ Matches a w ∨ Matches b w :=
  ⟨fun | .altLeft h => .inl h | .altRight h => .inr h, fun | .inl h => .altLeft h | .inr h => .altRight h⟩

theorem matches_empty_iff {w : List Char} : Matches .empty w ↔ w = [] :=
  ⟨fun | .empty => rfl, fun h => h ▸ .empty⟩

theorem matches_one_iff {p : Char → Bool} {w : List Char} :
    Matches (.one p) w ↔ ∃ c, w = [c] ∧ p c = true :=
  ⟨fun | .one h => ⟨_, rfl, h⟩, fun ⟨_, e, h⟩ => e ▸ .one h⟩

theorem matches_seq' {a b : Pattern} {w : List Char} : Matches (seq' a b) w ↔ Matches (.seq a b) w := by
  unfold seq'; split
  · simp only [matches_seq_iff]
    exact ⟨fun h => absurd h not_matches_never, fun ⟨_, _, _, h, _⟩ => absurd h not_matches_never⟩
  · simp only [matches_seq_iff, matches_empty_iff]
    exact ⟨fun h => ⟨[], w, rfl, rfl, h⟩, fun ⟨_, _, e, hu, hv⟩ => by subst hu; exact e ▸ hv⟩
  · rfl

theorem matches_alt' {a b : Pattern} {w : List Char} : Matches (alt' a b) w ↔ Matches (.alt a b) w := by
  unfold alt'; split <;> simp [matches_alt_iff, not_matches_never]

theorem nullable_iff {p : Pattern} : p.nullable = true ↔ Matches p [] := by
  induction p with
  | never => simp [nullable, not_matches_never]
  | empty => simp [nullable, matches_empty_iff]
  | one p => simp [nullable, matches_one_iff]
  | seq a b iha ihb =>
    simp only [nullable, Bool.and_eq_true, iha, ihb, matches_seq_iff]
    constructor
    · exact fun ⟨ha, hb⟩ => ⟨[], [], rfl, ha, hb⟩
    · rintro ⟨u, v, e, ha, hb⟩
      obtain ⟨rfl, rfl⟩ := List.append_eq_nil_iff.1 e.symm
      exact ⟨ha, hb⟩
  | alt a b iha ihb => simp [nullable, iha, ihb, matches_alt_iff]
  | many a => exact ⟨fun _ => .manyNil, fun _ => rfl⟩

theorem matches_many_cons_iff {a : Pattern} {c : Char} {w : List Char} :
    Matches (.many a) (c :: w) ↔
      ∃ u v, w = u ++ v ∧ Matches a (c :: u) ∧ Matches (.many a) v := by
  constructor
  · generalize hp : Pattern.many a = p
    generalize hx : c :: w = x
    intro h
    induction h with
    | empty | one | seq | altLeft | altRight => cases hp
    | manyNil => cases hx
    | @manyCons b u v hu hv _ ih =>
      cases hp
      cases u with
      | nil => exact ih rfl hx
      | cons d u => cases hx; exact ⟨u, v, rfl, hu, hv⟩
  · rintro ⟨u, v, rfl, hu, hv⟩
    exact .manyCons hu hv

theorem matches_deriv_iff {p : Pattern} {c : Char} {w : List Char} :
    Matches (p.deriv c) w ↔ Matches p (c :: w) := by
  induction p generalizing w with
  | never => simp [deriv, not_matches_never]
  | empty => simp [deriv, not_matches_never, matches_empty_iff]
  | one p =>
    unfold deriv
    by_cases h : p c
    · simp only [h, if_true, matches_empty_iff, matches_one_iff, List.cons.injEq]
      exact ⟨fun e => ⟨c, ⟨rfl, e⟩, h⟩, fun ⟨_, ⟨_, e⟩, _⟩ => e⟩
    · simp only [h, not_matches_never, matches_one_iff, List.cons.injEq, false_iff, Bool.false_eq_true, if_false]
      rintro ⟨d, ⟨rfl, -⟩, hd⟩
      exact h hd
  | alt a b iha ihb => simp [deriv, matches_alt', matches_alt_iff, iha, ihb]
  | many a ih =>
    simp only [deriv, matches_seq', matches_seq_iff, ih, matches_many_cons_iff]
  | seq a b iha ihb =>
    have left : Matches (seq' (a.deriv c) b) w ↔
        ∃ u v, w = u ++ v ∧ Matches a (c :: u) ∧ Matches b v := by
      simp [matches_seq', matches_seq_iff, iha]
    by_cases hn : a.nullable
    · simp only [deriv, hn, if_true, matches_alt', matches_alt_iff, left, ihb, matches_seq_iff]
      constructor
      · rintro (⟨u, v, rfl, hu, hv⟩ | h)
        · exact ⟨c :: u, v, rfl, hu, hv⟩
        · exact ⟨[], c :: w, rfl, nullable_iff.1 hn, h⟩
      · rintro ⟨u, v, e, hu, hv⟩
        cases u with
        | nil => exact .inr (by simpa [e] using hv)
        | cons d u => cases e; exact .inl ⟨u, v, rfl, hu, hv⟩
    · simp only [deriv, hn, left, matches_seq_iff, Bool.false_eq_true, if_false]
      constructor
      · rintro ⟨u, v, rfl, hu, hv⟩; exact ⟨c :: u, v, rfl, hu, hv⟩
      · rintro ⟨u, v, e, hu, hv⟩
        cases u with
        | nil => exact absurd (nullable_iff.2 hu) hn
        | cons d u => cases e; exact ⟨u, v, rfl, hu, hv⟩

/-! ## The longest match -/

theorem longest_never (r : List Char) : longest .never r = none := by
  cases r <;> rfl

theorem longest_nil (p : Pattern) : longest p [] = if p.nullable then some 0 else none := by
  cases p <;> rfl

theorem longest_cons (p : Pattern) (c : Char) (r : List Char) :
    longest p (c :: r) =
      match longest (p.deriv c) r with
      | some n => some (n + 1)
      | none => if p.nullable then some 0 else none := by
  cases p <;> simp [longest, deriv, longest_never, nullable]

theorem longest_eq_none_iff {p : Pattern} {r : List Char} :
    longest p r = none ↔ ∀ n, n ≤ r.length → ¬ Matches p (r.take n) := by
  induction r generalizing p with
  | nil => simp [longest_nil, nullable_iff]
  | cons c r ih =>
    rw [longest_cons]
    constructor
    · intro h n hn
      split at h
      · cases h
      · next e =>
        cases n with
        | zero => intro m; simp [nullable_iff.2 m] at h
        | succ n => exact fun m => ih.1 e n (by simpa using hn) (matches_deriv_iff.2 (by simpa using m))
    · intro h
      have e : longest (p.deriv c) r = none :=
        ih.2 fun n hn m => h (n + 1) (by simpa using hn) (by simpa using matches_deriv_iff.1 m)
      have := h 0 (by simp)
      simp [e, nullable_iff]
      simpa using this

theorem longest_eq_some_iff {p : Pattern} {r : List Char} {n : Nat} :
    longest p r = some n ↔
      n ≤ r.length ∧ Matches p (r.take n) ∧ ∀ m, n < m → m ≤ r.length → ¬ Matches p (r.take m) := by
  induction r generalizing p n with
  | nil =>
    rw [longest_nil]
    constructor
    · intro h
      split at h
      · next hn => cases h; exact ⟨by simp, nullable_iff.1 hn, fun m h1 h2 => by simp at h2; omega⟩
      · cases h
    · rintro ⟨h1, h2, -⟩
      simp at h1; subst h1
      simp [nullable_iff.2 h2]
  | cons c r ih =>
    rw [longest_cons]
    have lift (m : Nat) : Matches p ((c :: r).take (m + 1)) ↔ Matches (p.deriv c) (r.take m) := by
      simp [matches_deriv_iff]
    split
    · next k e =>
      obtain ⟨h1, h2, h3⟩ := ih.1 e
      constructor
      · intro h; cases h
        refine ⟨by simpa using h1, (lift k).2 h2, fun m hm hl => ?_⟩
        obtain ⟨m, rfl⟩ : ∃ j, m = j + 1 := ⟨m - 1, by omega⟩
        rw [lift]; exact h3 m (by omega) (by simpa using hl)
      · rintro ⟨g1, g2, g3⟩
        have : ¬ n < k + 1 := fun hlt => g3 (k + 1) hlt (by simpa using h1) ((lift k).2 h2)
        obtain ⟨n, rfl⟩ : ∃ j, n = j + 1 := ⟨n - 1, by omega⟩
        have : ¬ k < n := fun hlt => h3 n hlt (by simpa using g1) ((lift n).1 g2)
        congr; omega
    · next e =>
      have none := longest_eq_none_iff.1 e
      constructor
      · intro h
        split at h
        · next hn =>
          cases h
          refine ⟨by simp, nullable_iff.1 hn, fun m hm hl => ?_⟩
          obtain ⟨m, rfl⟩ : ∃ j, m = j + 1 := ⟨m - 1, by omega⟩
          rw [lift]; exact none m (by simpa using hl)
        · cases h
      · rintro ⟨g1, g2, -⟩
        cases n with
        | zero => simp [nullable_iff.2 (by simpa using g2)]
        | succ n => exact absurd ((lift n).1 g2) (none n (by simpa using g1))

end Pattern

end Offside
