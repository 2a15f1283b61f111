import Offside.Proofs.Boundary
import Offside.Proofs.LineContent

/-!
# A content token is the longest match

`Content.lexOne` tries all patterns at the front of a text and takes the longest match, between equal
ones that of the pattern declared first (`best_eq_some`). The order decides only over what `unknown`
matches too: texts of two other kinds start with different characters (`lead_of_starts`), or they are
two arrows, or a dash and a number, and these differ (`kind_unique`). So a text has one token that is
longest and not `unknown` without need, and `lexOne` gives that token (`lexOne_maximal`).
-/

namespace Offside

namespace Pattern

def starts (c : Char) : Pattern → Bool
  | .never => false
  | .empty => false
  | .one p => p c
  | .seq a b => a.starts c || a.nullable && b.starts c
  | .alt a b => a.starts c || b.starts c
  | .many a => a.starts c

theorem starts_of_matches {p : Pattern} {c : Char} {w : List Char} (h : Matches p (c :: w)) :
    p.starts c = true := by
  induction p generalizing w with
  | never => exact absurd h not_matches_never
  | empty => cases h
  | one q =>
    obtain ⟨d, e, hd⟩ := matches_one_iff.mp h
    cases e
    exact hd
  | seq a b iha ihb =>
    obtain ⟨u, v, e, hu, hv⟩ := matches_seq_iff.mp h
    cases u with
    | nil =>
      subst e
      simp [starts, nullable_iff.mpr hu, ihb hv]
    | cons d u =>
      cases e
      simp [starts, iha hu]
  | alt a b iha ihb =>
    rcases matches_alt_iff.mp h with h | h
    · simp [starts, iha h]
    · simp [starts, ihb h]
  | many a ih =>
    obtain ⟨u, v, -, hu, -⟩ := matches_many_cons_iff.mp h
    exact ih hu

theorem matches_text_iff {v w : List Char} : Matches (text v) w ↔ w = v := by
  induction v generalizing w with
  | nil => exact matches_empty_iff
  | cons c v ih =>
    rw [text, matches_seq_iff]
    constructor
    · rintro ⟨a, b, rfl, ha, hb⟩
      obtain ⟨d, rfl, hd⟩ := matches_one_iff.mp ha
      rw [ih.mp hb, beq_iff_eq.mp hd]
      rfl
    · rintro rfl
      exact ⟨[c], v, rfl, .one (beq_self_eq_true c), ih.mpr rfl⟩

end Pattern

namespace Content

/-! ## No text is of two kinds -/

/-- Kinds whose texts may start alike have the same family. -/
def family : Content → Content
  | bindBoth => bindLeft
  | dash => number
  | t => t

def lead (c : Char) : Content :=
  if c.isDigit then number
  else if isWordStart c then identifier
  else match c with
    | '+' | '-' | '.' => number
    | '$' => componentName
    | '<' => bindLeft
    | '=' => bindRight
    | '^' => caret
    | '@' => atSign
    | '/' => slash
    | '*' => star
    | '\x5c' => rawString
    | ' ' | '\t' => whitespace
    | _ => unknown

theorem isDigit_of_isWordStart {c : Char} (h : isWordStart c = true) : c.isDigit = false := by
  have letter : c.isAlpha = (decide (65 ≤ c.toNat ∧ c.toNat ≤ 90) ||
      decide (97 ≤ c.toNat) && decide (c.toNat ≤ 122)) := rfl
  have digit : c.isDigit = (decide (48 ≤ c.toNat) && decide (c.toNat ≤ 57)) := rfl
  simp only [isWordStart, letter, Bool.or_eq_true, Bool.and_eq_true, decide_eq_true_eq, beq_iff_eq] at h
  simp only [digit, Bool.and_eq_false_iff, decide_eq_false_iff_not]
  rcases h with (upper | lower) | rfl
  · omega
  · omega
  · decide

theorem lead_of_starts {t : Content} {c : Char} (ht : t ≠ unknown) (h : t.pattern.starts c = true) :
    lead c = t.family := by
  cases t with
  | unknown => exact absurd rfl ht
  | number =>
    have h : (c = '+' ∨ c = '-') ∨ c.isDigit = true ∨ c = '.' := by
      simpa [pattern, sign, mantissa, digits, Pattern.optional, Pattern.some1, Pattern.char,
        Pattern.starts, Pattern.nullable] using h
    rcases h with (rfl | rfl) | digit | rfl
    · rfl
    · rfl
    · simp [lead, digit, family]
    · rfl
  | identifier =>
    have h : isWordStart c = true := by simpa [pattern, word, Pattern.starts, Pattern.nullable] using h
    simp [lead, isDigit_of_isWordStart h, h, family]
  | whitespace =>
    have h : c = ' ' ∨ c = '\t' := by
      simpa [pattern, Pattern.some1, Pattern.starts, Pattern.nullable] using h
    rcases h with rfl | rfl <;> rfl
  | componentName | bindBoth | bindLeft | bindRight | caret | atSign | slash | star | dash | rawString =>
    simp [pattern, Pattern.char, Pattern.text, Pattern.starts, Pattern.nullable] at h
    subst h
    rfl

theorem eq_or_of_family {t u : Content} (h : t.family = u.family) :
    t = u ∨ (t = bindBoth ∧ u = bindLeft) ∨ (t = bindLeft ∧ u = bindBoth) ∨
      (t = dash ∧ u = number) ∨ (t = number ∧ u = dash) := by
  revert h
  cases t <;> cases u <;> decide

theorem ne_nil_of_matches {t : Content} {w : List Char} (h : t.pattern.Matches w) : w ≠ [] := by
  rintro rfl
  have nullable := Pattern.nullable_iff.mpr h
  cases t <;> cases nullable

theorem not_both_arrows {w : List Char} (both : bindBoth.pattern.Matches w)
    (left : bindLeft.pattern.Matches w) : False := by
  have both : w = ['<', '=', '>'] := Pattern.matches_text_iff.mp both
  have left : w = ['<', '='] := Pattern.matches_text_iff.mp left
  rw [both] at left
  cases left

theorem not_dash_and_number {w : List Char} (isDash : dash.pattern.Matches w)
    (isNumber : number.pattern.Matches w) : False := by
  obtain ⟨c, rfl, hc⟩ := Pattern.matches_one_iff.mp isDash
  obtain rfl : c = '-' := by simpa using hc
  -- a number goes on behind its sign
  have ends := Pattern.nullable_iff.mpr (Pattern.matches_deriv_iff.mpr isNumber)
  cases ends

/-- No text is of two kinds, but that it may also be unknown. -/
theorem kind_unique {t u : Content} {w : List Char} (ht : t ≠ unknown) (hu : u ≠ unknown)
    (h : t.pattern.Matches w) (h' : u.pattern.Matches w) : t = u := by
  obtain ⟨c, w, rfl⟩ := List.exists_cons_of_ne_nil (ne_nil_of_matches h)
  have alike : t.family = u.family := by
    rw [← lead_of_starts ht (Pattern.starts_of_matches h),
      ← lead_of_starts hu (Pattern.starts_of_matches h')]
  rcases eq_or_of_family alike with same | ⟨rfl, rfl⟩ | ⟨rfl, rfl⟩ | ⟨rfl, rfl⟩ | ⟨rfl, rfl⟩
  · exact same
  · exact (not_both_arrows h h').elim
  · exact (not_both_arrows h' h).elim
  · exact (not_dash_and_number h h').elim
  · exact (not_dash_and_number h' h).elim

/-! ## The first of the longest -/

theorem best_eq_none_iff {l : List (Content × Nat)} : best l = none ↔ l = [] := by
  cases l with
  | nil => simp [best]
  | cons e l =>
    rw [best]
    split
    · split <;> simp
    · simp

theorem best_eq_some : ∀ {l : List (Content × Nat)} {e : Content × Nat}, best l = some e →
    ∃ before behind, l = before ++ e :: behind ∧ (∀ d ∈ before, d.2 < e.2) ∧ ∀ d ∈ behind, d.2 ≤ e.2
  | [], _, h => by cases h
  | (t, n) :: l, e, h => by
    rw [best] at h
    split at h
    · next u m rest =>
      obtain ⟨before, behind, rfl, less, least⟩ := best_eq_some rest
      split at h
      · next longer =>
        cases h
        refine ⟨(t, n) :: before, behind, rfl, fun d hd => ?_, least⟩
        rcases List.mem_cons.mp hd with rfl | hd
        · exact longer
        · exact less d hd
      · next longer =>
        cases h
        refine ⟨[], _, rfl, by simp, fun d hd => Nat.le_trans ?_ (Nat.le_of_not_lt longer)⟩
        rcases List.mem_append.mp hd with hd | hd
        · exact Nat.le_of_lt (less d hd)
        · rcases List.mem_cons.mp hd with rfl | hd
          · exact Nat.le_refl m
          · exact least d hd
    · next none =>
      cases h
      exact ⟨[], l, rfl, by simp, by simp [best_eq_none_iff.mp none]⟩

theorem sublist_candidates (f : Content → Option Nat) : ∀ l : List Content,
    ((l.filterMap fun t => (f t).map (t, ·)).map Prod.fst).Sublist l
  | [] => .slnil
  | t :: l => by
    rw [List.filterMap_cons]
    cases f t with
    | none => exact (sublist_candidates f l).cons t
    | some n => exact (sublist_candidates f l).cons_cons t

theorem not_sublist_unknown (u : Content) : ¬ [unknown, u].Sublist all := by
  cases u <;> decide

theorem exists_candidate {c : Char} {r w v : List Char} {t : Content} (split : r = w ++ v)
    (h : t.pattern.Matches (c :: w)) : ∃ n, (t, n) ∈ candidates c r ∧ w.length ≤ n := by
  have taken : (t.pattern.deriv c).Matches (r.take w.length) := by
    rw [split, List.take_left, Pattern.matches_deriv_iff]
    exact h
  have fits : w.length ≤ r.length := by simp [split]
  cases longest : (t.pattern.deriv c).longest r with
  | none => exact absurd taken (Pattern.longest_eq_none_iff.mp longest _ fits)
  | some n =>
    refine ⟨n, List.mem_filterMap.mpr ⟨t, ?_, by rw [longest]; rfl⟩, Nat.le_of_not_lt fun less => ?_⟩
    · cases t <;> decide
    · exact (Pattern.longest_eq_some_iff.mp longest).2.2 _ less fits taken

/-! ## Maximal munch -/

/-- The token is the front of the text, longest of all fronts that a pattern matches, and it is of
the only kind that its text can have, or `unknown` if there is no such kind. -/
structure Taken.Longest (text : List Char) (t : Taken) : Prop where
  split : text = t.lexeme ++ t.rest
  spells : t.kind.pattern.Matches t.lexeme
  longest : ∀ (u : Content) (v w : List Char), text = v ++ w → u.pattern.Matches v →
    byteLength v ≤ byteLength t.lexeme
  precedes : ∀ u : Content, u.pattern.Matches t.lexeme → u ≠ t.kind → u = unknown

theorem Taken.Longest.unique {text : List Char} {t u : Taken} (ht : t.Longest text) (hu : u.Longest text) :
    t = u := by
  have split := ht.split.symm.trans hu.split
  have lengths : byteLength t.lexeme = byteLength u.lexeme :=
    Nat.le_antisymm (hu.longest t.kind _ _ ht.split ht.spells) (ht.longest u.kind _ _ hu.split hu.spells)
  obtain ⟨lexemes, rests⟩ := append_inj_of_byteLength split lengths
  have kinds : t.kind = u.kind := Decidable.byContradiction fun differ => by
    -- each would have to be unknown
    have first := ht.precedes u.kind (lexemes ▸ hu.spells) (Ne.symm differ)
    have second := hu.precedes t.kind (lexemes ▸ ht.spells) differ
    exact differ (second.trans first.symm)
  cases t
  cases u
  cases kinds
  cases lexemes
  cases rests
  rfl

theorem exists_matches {c : Char} (h : c ≠ '\n') : ∃ t : Content, t.pattern.Matches [c] := by
  by_cases blank : c = ' ' ∨ c = '\t'
  · exact ⟨whitespace, .seq (.one (by simpa using blank)) .manyNil⟩
  · exact ⟨unknown, .one (by simpa [not_or, h] using blank)⟩

theorem length_le_of_best {c : Char} {r w v : List Char} {e : Content × Nat} {t : Content}
    (h : best (candidates c r) = some e) (split : r = w ++ v) (hw : t.pattern.Matches (c :: w)) :
    w.length ≤ e.2 := by
  obtain ⟨m, mem, le⟩ := exists_candidate split hw
  obtain ⟨before, behind, parts, less, least⟩ := best_eq_some h
  rw [parts] at mem
  rcases List.mem_append.mp mem with mem | mem
  · exact Nat.le_trans le (Nat.le_of_lt (less _ mem))
  · rcases List.mem_cons.mp mem with rfl | mem
    · exact le
    · exact Nat.le_trans le (least _ mem)

theorem not_matches_of_best {c : Char} {r : List Char} {n : Nat} {t : Content} (ht : t ≠ unknown)
    (h : best (candidates c r) = some (unknown, n)) : ¬ t.pattern.Matches (c :: r.take n) := by
  intro hm
  obtain ⟨fits, -⟩ := mem_candidates (mem_of_best h)
  obtain ⟨m, mem, le⟩ := exists_candidate (List.take_append_drop n r).symm hm
  rw [List.length_take_of_le fits] at le
  obtain ⟨before, behind, parts, less, -⟩ := best_eq_some h
  have order := sublist_candidates (fun t => (t.pattern.deriv c).longest r) all
  rw [show all.filterMap _ = candidates c r from rfl, parts] at order
  rw [parts] at mem
  rcases List.mem_append.mp mem with mem | mem
  · exact Nat.not_lt_of_le le (less _ mem)
  · rcases List.mem_cons.mp mem with same | mem
    · exact ht (congrArg Prod.fst same)
    · -- `unknown` is declared last
      have kind : t ∈ behind.map Prod.fst := List.mem_map_of_mem mem
      have later : [unknown, t].Sublist (unknown :: behind.map Prod.fst) :=
        (List.singleton_sublist.mpr kind).cons_cons unknown
      rw [List.map_append, List.map_cons] at order
      exact not_sublist_unknown t (later.trans ((List.sublist_append_right _ _).trans order))

theorem lexOne_longest {c : Char} {r : List Char} (hc : c ≠ '\n') :
    ∃ t, lexOne (c :: r) = some t ∧ t.Longest (c :: r) := by
  obtain ⟨k, hk⟩ := exists_matches hc
  obtain ⟨_, some, -⟩ := exists_candidate (w := []) (List.nil_append r).symm hk
  cases hb : best (candidates c r) with
  | none =>
    rw [best_eq_none_iff.mp hb] at some
    cases some
  | some e =>
    obtain ⟨t, n⟩ := e
    obtain ⟨fits, spells⟩ := mem_candidates (mem_of_best hb)
    refine ⟨⟨t, c :: r.take n, r.drop n⟩, by simp only [lexOne, hb], by simp, spells, ?_, ?_⟩
    · intro u v w split hv
      obtain ⟨d, v, rfl⟩ := List.exists_cons_of_ne_nil (ne_nil_of_matches hv)
      obtain ⟨rfl, rfl⟩ := List.cons.inj split
      have le : v.length ≤ n := length_le_of_best hb rfl hv
      simp [List.take_append, List.take_of_length_le le]
    · intro u hu differ
      refine Decidable.byContradiction fun known => ?_
      by_cases ht : t = unknown
      · subst ht
        exact not_matches_of_best known hb hu
      · exact differ (kind_unique known ht hu spells)

theorem lexOne_newline (r : List Char) : lexOne ('\n' :: r) = some ⟨unknown, ['\n'], r⟩ := by
  cases hb : best (candidates '\n' r) with
  | none => simp only [lexOne, hb]
  | some e =>
    obtain ⟨-, feed⟩ := mem_candidates (mem_of_best hb)
    exact absurd List.mem_cons_self (not_mem_of_matches feed)

/-- Only the empty text gives no token, and a line feed is an unknown token by itself. Every other
text gives its longest token: a front of the text that the pattern of its kind matches, where no
pattern matches a longer front, and no other pattern but that of `unknown` matches this one. There is
one such token. It is not empty, ends between characters and does not leave its line. -/
theorem lexOne_maximal (text : List Char) :
    (lexOne text = none ↔ text = []) ∧
    (∀ r, text = '\n' :: r → lexOne text = some ⟨unknown, ['\n'], r⟩) ∧
    (text ≠ [] → text.head? ≠ some '\n' → ∃ t, lexOne text = some t ∧ t.Longest text ∧
      (∀ u : Taken, u.Longest text → u = t) ∧ 1 ≤ byteLength t.lexeme ∧
      IsBoundary (byteLength t.lexeme) text ∧ '\n' ∉ t.lexeme) := by
  refine ⟨lexOne_eq_none_iff, ?_, ?_⟩
  · rintro r rfl
    exact lexOne_newline r
  · intro ne head
    obtain ⟨c, r, rfl⟩ := List.exists_cons_of_ne_nil ne
    obtain ⟨t, ht, longest⟩ := lexOne_longest (c := c) (r := r) (by simpa using head)
    have some := mt byteLength_eq_zero_iff.mp (lexeme_ne_nil ht)
    refine ⟨t, ht, longest, fun u hu => hu.unique longest, by omega, ?_, not_mem_lexeme ht head⟩
    exact ⟨t.lexeme, t.rest, longest.split, rfl⟩

/-- The exponent is left over where it has no digits. -/
example : lexOne "1.e+x".toList = some ⟨number, "1.".toList, "e+x".toList⟩ := by decide +kernel

end Content

end Offside
