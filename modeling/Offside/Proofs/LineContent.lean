import Offside.Token.Content

/-!
# Content tokens stay on their line

No pattern of a content token takes a line feed (`not_mem_of_matches`). So what `Content.lexOne`
finds depends on the text up to the next line feed only (`lexOne_append`), and the token it finds
ends before that (`not_mem_lexeme`).
-/

namespace Offside

namespace Pattern

def avoids (c : Char) : Pattern → Bool
  | .never => true
  | .empty => true
  | .one p => !p c
  | .seq a b => a.avoids c && b.avoids c
  | .alt a b => a.avoids c && b.avoids c
  | .many a => a.avoids c

theorem not_mem_of_avoids {p : Pattern} {c : Char} {w : List Char} (h : p.avoids c = true)
    (m : Matches p w) : c ∉ w := by
  induction m with
  | empty | manyNil => simp
  | @one q d hd =>
    intro hm
    obtain rfl := List.mem_singleton.mp hm
    simp [avoids, hd] at h
  | seq _ _ iha ihb =>
    simp only [avoids, Bool.and_eq_true] at h
    simp [iha h.1, ihb h.2]
  | altLeft _ ih => simp only [avoids, Bool.and_eq_true] at h; exact ih h.1
  | altRight _ ih => simp only [avoids, Bool.and_eq_true] at h; exact ih h.2
  | manyCons _ _ iha ihb => simp [iha h, ihb h]

theorem longest_append {p : Pattern} {r u : List Char}
    (h : ∀ n, r.length < n → ¬ Matches p ((r ++ u).take n)) : longest p (r ++ u) = longest p r := by
  have within : ∀ n, n ≤ r.length → (r ++ u).take n = r.take n :=
    fun n hn => List.take_append_of_le_length hn
  cases hl : longest p r with
  | none =>
    refine longest_eq_none_iff.mpr fun n _ => ?_
    rcases Nat.lt_or_ge r.length n with hn | hn
    · exact h n hn
    · rw [within n hn]; exact longest_eq_none_iff.mp hl n hn
  | some k =>
    obtain ⟨hk, hm, hmax⟩ := longest_eq_some_iff.mp hl
    refine longest_eq_some_iff.mpr ⟨by simp; omega, by rw [within k hk]; exact hm, fun n hkn _ => ?_⟩
    rcases Nat.lt_or_ge r.length n with hn | hn
    · exact h n hn
    · rw [within n hn]; exact hmax n hkn hn

end Pattern

namespace Content

theorem pattern_avoids (t : Content) : t.pattern.avoids '\n' = true := by cases t <;> rfl

theorem not_mem_of_matches {t : Content} {w : List Char} (h : t.pattern.Matches w) : '\n' ∉ w :=
  Pattern.not_mem_of_avoids t.pattern_avoids h

/-- A return is taken as a token of one character, or not at all. -/
theorem not_mem_tail_of_matches {t : Content} {c : Char} {w : List Char}
    (h : t.pattern.Matches (c :: w)) : '\r' ∉ w ∧ '\n' ∉ w := by
  refine ⟨fun hm => ?_, fun hm => not_mem_of_matches h (List.mem_cons_of_mem c hm)⟩
  by_cases ht : t = unknown
  · subst ht
    cases h
    cases hm
  · have avoids : t.pattern.avoids '\r' = true := by
      cases t with
      | unknown => exact absurd rfl ht
      | _ => rfl
    exact Pattern.not_mem_of_avoids avoids h (List.mem_cons_of_mem c hm)

theorem mem_of_best : ∀ {l : List (Content × Nat)} {e : Content × Nat}, best l = some e → e ∈ l
  | [], _, h => nomatch h
  | (t, n) :: l, e, h => by
    rw [best] at h
    cases hb : best l with
    | none => simp only [hb, Option.some.injEq] at h; simp [← h]
    | some d =>
      simp only [hb] at h
      split at h
      · cases h; exact List.mem_cons_of_mem _ (mem_of_best hb)
      · cases h; exact List.mem_cons_self

theorem mem_candidates {c : Char} {r : List Char} {t : Content} {n : Nat}
    (h : (t, n) ∈ candidates c r) : n ≤ r.length ∧ t.pattern.Matches (c :: r.take n) := by
  obtain ⟨s, _, hs⟩ := List.mem_filterMap.mp h
  obtain ⟨k, hk, e⟩ := Option.map_eq_some_iff.mp hs
  cases e
  obtain ⟨hn, hm, _⟩ := Pattern.longest_eq_some_iff.mp hk
  exact ⟨hn, Pattern.matches_deriv_iff.mp hm⟩

theorem candidates_append {c : Char} {r : List Char} (u : List Char) (h : '\n' ∈ c :: r) :
    candidates c (r ++ u) = candidates c r := by
  unfold candidates
  congr 1; funext t
  rw [Pattern.longest_append]
  intro n hn m
  refine not_mem_of_matches (Pattern.matches_deriv_iff.mp m) ?_
  rw [List.take_append, List.take_of_length_le (Nat.le_of_lt hn), ← List.cons_append]
  exact List.mem_append_left _ h

theorem candidates_append_of_stop {c d : Char} {r : List Char} (u : List Char) (hd : d = '\r' ∨ d = '\n') :
    candidates c (r ++ d :: u) = candidates c r := by
  unfold candidates
  congr 1; funext t
  rw [Pattern.longest_append]
  intro n hn m
  obtain ⟨noReturn, noFeed⟩ := not_mem_tail_of_matches (Pattern.matches_deriv_iff.mp m)
  obtain ⟨k, rfl⟩ := Nat.exists_eq_add_of_lt hn
  have mem : d ∈ (r ++ d :: u).take (r.length + k + 1) := by
    rw [Nat.add_assoc, List.take_length_add_append]
    simp
  rcases hd with rfl | rfl
  · exact noReturn mem
  · exact noFeed mem

theorem lexOne_append_of_candidates {c : Char} {r u : List Char}
    (h : candidates c (r ++ u) = candidates c r) :
    lexOne (c :: (r ++ u)) = (lexOne (c :: r)).map fun t => { t with rest := t.rest ++ u } := by
  simp only [lexOne, h]
  cases hb : best (candidates c r) with
  | none => rfl
  | some e =>
    obtain ⟨hn, _⟩ := mem_candidates (mem_of_best hb)
    simp [List.take_append_of_le_length hn, List.drop_append_of_le_length hn]

theorem lexOne_append_of_mem {text : List Char} (u : List Char) (h : '\n' ∈ text) :
    lexOne (text ++ u) = (lexOne text).map fun t => { t with rest := t.rest ++ u } := by
  cases text with
  | nil => cases h
  | cons c r => exact lexOne_append_of_candidates (candidates_append u h)

theorem exists_lexOne (c : Char) (r : List Char) : ∃ t, lexOne (c :: r) = some t := by
  cases h : lexOne (c :: r) with
  | none => exact absurd (lexOne_eq_none_iff.mp h) (List.cons_ne_nil c r)
  | some t => exact ⟨t, rfl⟩

theorem not_mem_lexeme {text : List Char} {t : Taken} (h : lexOne text = some t)
    (hn : text.head? ≠ some '\n') : '\n' ∉ t.lexeme := by
  cases text with
  | nil => cases h
  | cons c r =>
    simp only [lexOne] at h
    cases hb : best (candidates c r) with
    | none =>
      simp only [hb, Option.some.injEq] at h
      subst h
      intro hm
      exact hn (by rw [List.head?_cons, List.mem_singleton.mp hm])
    | some e =>
      simp only [hb, Option.some.injEq] at h
      subst h
      exact not_mem_of_matches (mem_candidates (mem_of_best hb)).2

theorem lexeme_ne_nil {text : List Char} {t : Taken} (h : lexOne text = some t) : t.lexeme ≠ [] := by
  have hl := lexOne_length_lt h
  intro e
  rw [lexOne_append h, e] at hl
  exact Nat.lt_irrefl _ hl

end Content

end Offside
