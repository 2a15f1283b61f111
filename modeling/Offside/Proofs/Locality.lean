import Offside.Proofs.LineStarts

/-!
# Lexing is local at line starts

The output of a text is cut at a line start into what stands before and what comes behind
(`tokenize_of_leads`), and the two parts can be told apart by their offsets (`Output.CutAt`). The
part before does not depend on the text behind. So two sources that agree up to a line start have
the same tokens, diagnostics, checkpoints and states up to there (`tokenize_local`).
-/

namespace Offside

/-! ## Output cut in two -/

namespace Output

/-- The output `x` stops, and `y` goes on, at the offset `n` with `k` tokens before it. -/
structure CutAt (n k : Nat) (x y : Output) : Prop where
  tokens : x.tokens.length = k
  diagnostics : (∀ d ∈ x.diagnostics, d.offset < n) ∧ ∀ d ∈ y.diagnostics, n ≤ d.offset
  checkpoints : (∀ p ∈ x.checkpoints, p.offset ≤ n) ∧ ∀ p ∈ y.checkpoints, n < p.offset

section
variable {n k : Nat} {x y : Output}

theorem filter_append_left {α : Type} {q : α → Bool} {l r : List α} (hl : ∀ a ∈ l, q a = true)
    (hr : ∀ a ∈ r, q a = false) : (l ++ r).filter q = l := by
  rw [List.filter_append, List.filter_eq_self.mpr hl,
    List.filter_eq_nil_iff.mpr fun a ha => by simp [hr a ha], List.append_nil]

theorem filter_append_right {α : Type} {q : α → Bool} {l r : List α} (hl : ∀ a ∈ l, q a = false)
    (hr : ∀ a ∈ r, q a = true) : (l ++ r).filter q = r := by
  rw [List.filter_append, List.filter_eq_self.mpr hr,
    List.filter_eq_nil_iff.mpr fun a ha => by simp [hl a ha], List.nil_append]

theorem takeWhile_append_left {α : Type} {q : α → Bool} {l r : List α} (hl : ∀ a ∈ l, q a = true)
    (hr : ∀ a ∈ r, q a = false) : (l ++ r).takeWhile q = l := by
  rw [List.takeWhile_append_of_pos hl]
  cases r with
  | nil => simp
  | cons a r => simp [hr a List.mem_cons_self]

theorem CutAt.diagnostics_before (h : CutAt n k x y) :
    (x.append y).diagnostics.filter (·.offset < n) = x.diagnostics :=
  filter_append_left (fun d hd => decide_eq_true (h.diagnostics.1 d hd)) fun d hd =>
    decide_eq_false (Nat.not_lt.mpr (h.diagnostics.2 d hd))

theorem CutAt.checkpoints_before (h : CutAt n k x y) :
    (x.append y).checkpoints.filter (·.offset ≤ n) = x.checkpoints :=
  filter_append_left (fun p hp => decide_eq_true (h.checkpoints.1 p hp)) fun p hp =>
    decide_eq_false (Nat.not_le.mpr (h.checkpoints.2 p hp))

theorem CutAt.diagnostics_behind (h : CutAt n k x y) :
    (x.append y).diagnostics.filter (n ≤ ·.offset) = y.diagnostics :=
  filter_append_right (fun d hd => decide_eq_false (Nat.not_le.mpr (h.diagnostics.1 d hd))) fun d hd =>
    decide_eq_true (h.diagnostics.2 d hd)

theorem CutAt.checkpoints_behind (h : CutAt n k x y) :
    (x.append y).checkpoints.filter (n < ·.offset) = y.checkpoints :=
  filter_append_right (fun p hp => decide_eq_false (Nat.not_lt.mpr (h.checkpoints.1 p hp))) fun p hp =>
    decide_eq_true (h.checkpoints.2 p hp)

end

end Output

section
variable {cfg : Config} {source : List Char} {ms : List (Piece Sign)} {b : Spot}

def Output.upTo (cfg : Config) (ms : List (Piece Sign)) : Output :=
  (opening cfg).append (ofStrides 0 0 ms)

def Output.onward (cfg : Config) (ms : List (Piece Sign)) (b : Spot) : Output :=
  ofStrides (byteLength (textOf ms)) (tokenCount ms) (strides cfg b)

theorem upTo_map_extend (u : List Char) : Output.upTo cfg (ms.map (Piece.extend u)) = .upTo cfg ms := by
  rw [Output.upTo, Output.ofStrides_map_extend]; rfl

theorem tokenize_of_leads (h : Leads cfg (.start cfg source) ms b) :
    tokenize source cfg = (Output.upTo cfg ms).append (Output.onward cfg ms b) := by
  rw [tokenize_eq, h.strides_eq, Output.ofStrides_append, Nat.zero_add, Nat.zero_add,
    ← Output.append_assoc]
  rfl

theorem leads_strides (cfg : Config) (a : Spot) : ∃ b, Leads cfg a (strides cfg a) b := by
  obtain ⟨b, h, -⟩ := leads_of_strides_eq (List.append_nil (strides cfg a)).symm
  exact ⟨b, h⟩

theorem cutAt_of_leads (h : Leads cfg (.start cfg source) ms b) :
    Output.CutAt (byteLength (textOf ms)) (tokenCount ms) (.upTo cfg ms) (.onward cfg ms b) := by
  have before := Output.within_ofStrides h 0 0
  obtain ⟨c, hc⟩ := leads_strides cfg b
  have behind := Output.within_ofStrides hc (byteLength (textOf ms)) (tokenCount ms)
  rw [Nat.zero_add] at before
  refine ⟨Output.length_tokens_ofStrides 0 0 ms, ⟨fun d hd => (before.diagnostics d hd).2,
    fun d hd => (behind.diagnostics d hd).1⟩, fun p hp => ?_, fun p hp => (behind.checkpoints p hp).1⟩
  rcases List.mem_cons.mp hp with rfl | hp
  · exact Nat.zero_le _
  · exact (before.checkpoints p hp).2

end

/-! ## Tokens line by line -/

namespace Lexeme

def throughLines : Nat → List Lexeme → List Lexeme
  | 0, _ => []
  | _ + 1, [] => []
  | k + 1, l :: r => l :: throughLines (if l.endsLine then k else k + 1) r

theorem throughLines_append : ∀ {k : Nat} {ls : List Lexeme} (r : List Lexeme),
    ls.countP endsLine = k → (∀ l ∈ ls.getLast?, l.endsLine = true) → throughLines k (ls ++ r) = ls
  | 0, ls, _, hk, last => by
    cases hl : ls.getLast? with
    | none => rw [List.getLast?_eq_none_iff.mp hl, throughLines]
    | some l =>
      have := List.countP_eq_zero.mp hk l (List.mem_of_getLast? hl)
      exact absurd (last l hl) this
  | k + 1, [], _, hk, _ => by cases hk
  | k + 1, l :: ls, r, hk, last => by
    have tail := forall_getLast?_tail last
    rw [List.cons_append, throughLines]
    congr 1
    rw [List.countP_cons] at hk
    split
    · next hl => rw [if_pos hl] at hk; exact throughLines_append r (Nat.succ.inj hk) tail
    · next hl => rw [if_neg hl] at hk; exact throughLines_append r hk tail

end Lexeme

namespace Output

theorem countP_ofStrides {p : Lexeme → Bool} {q : Piece Sign → Bool}
    (alike : ∀ o m t, m.sign = .token t →
      p ⟨t, o + byteLength m.before, o + byteLength m.whole⟩ = q m)
    (other : ∀ m, (∀ t, m.sign ≠ .token t) → q m = false) :
    ∀ (o i : Nat) (ms : List (Piece Sign)), (ofStrides o i ms).tokens.countP p = ms.countP q
  | _, _, [] => rfl
  | o, i, m :: ms => by
    have one : (ofStride o i m).tokens.countP p = [m].countP q := by
      cases hs : m.sign with
      | token t => rw [ofStride_token hs, List.countP_singleton, List.countP_singleton, alike o m t hs]
      | refused e => simp [ofStride, hs, other]
      | done => simp [ofStride, hs, other]
    rw [ofStrides, append, List.countP_append, one, countP_ofStrides alike other, ← List.countP_append]
    rfl

theorem countP_endsLine_ofStrides (o i : Nat) (ms : List (Piece Sign)) :
    (ofStrides o i ms).tokens.countP Lexeme.endsLine = ms.countP Piece.endsLine := by
  refine countP_ofStrides (fun o m t ht => endsLine_lexeme ht o) (fun m none => ?_) o i ms
  rw [Piece.endsLine, beq_eq_false_iff_ne.mpr (none _), Bool.false_and]

theorem getLast?_tokens {ms : List (Piece Sign)} {l : Lexeme} (o i : Nat) (at' : AtLine ms)
    (hl : l ∈ (ofStrides o i ms).tokens.getLast?) :
    l.endsLine = true ∧ l.span.stop = o + byteLength (textOf ms) := by
  rcases List.eq_nil_or_concat ms with rfl | ⟨ms, m, rfl⟩
  · cases hl
  rw [List.concat_eq_append] at at' hl ⊢
  have ends := atLine_append_singleton.mp at'
  have hs := (endsLine_iff.mp ends).1
  rw [ofStrides_append, ofStrides_singleton, ofStride_token hs, append, List.getLast?_concat] at hl
  cases hl
  exact ⟨(endsLine_lexeme hs _).trans ends, by simp [Nat.add_assoc]⟩

end Output

/-! ## States line by line -/

theorem Lexer.At.alike {cfg : Config} {u v : List Char} : ∀ {ms : List (Piece Sign)} {o : Nat}
    {a b c d : Spot} {lx ly : Lexer}, lx.At cfg o a → ly.At cfg o c → a.state = c.state →
    Leads cfg a (ms.map (Piece.extend u)) b → Leads cfg c (ms.map (Piece.extend v)) d →
    (lx.after ms.length).position = o + byteLength (textOf ms) ∧ ∀ n, n ≤ ms.length →
      (lx.after n).position = (ly.after n).position ∧ (lx.after n).state = (ly.after n).state ∧
        (n < ms.length → (lx.after n).step.1 = (ly.after n).step.1)
  | [], o, a, _, c, _, lx, ly, hx, hy, hs, _, _ => by
    refine ⟨hx.eq.2.1, fun n hn => ?_⟩
    obtain rfl := Nat.le_zero.mp hn
    exact ⟨hx.eq.2.1.trans hy.eq.2.1.symm, (hx.state.trans hs).trans hy.state.symm, nofun⟩
  | m :: ms, o, a, b, c, d, lx, ly, hx, hy, hs, ha, hc => by
    obtain ⟨ea, -, ha⟩ := leads_cons_iff.mp ha
    obtain ⟨ec, -, hc⟩ := leads_cons_iff.mp hc
    have sx := hx.step
    have sy := hy.step
    rw [← ea] at sx
    rw [← ec] at sy
    obtain ⟨stop, rest⟩ := At.alike sx.2 sy.2 rfl ha hc
    rw [Piece.whole_extend] at stop
    refine ⟨by rw [textOf_cons, byteLength_append, ← Nat.add_assoc]; exact stop, fun n hn => ?_⟩
    cases n with
    | zero =>
      have state := (hx.state.trans hs).trans hy.state.symm
      exact ⟨hx.eq.2.1.trans hy.eq.2.1.symm, state, fun _ => sx.1.trans sy.1.symm⟩
    | succ n =>
      obtain ⟨hp, ht, he⟩ := rest n (Nat.le_of_succ_le_succ hn)
      exact ⟨hp, ht, fun lt => he (Nat.lt_of_succ_lt_succ lt)⟩

/-! ## Two sources -/

/-- Sources that agree up to a line start are lexed alike up to there: the tokens line by line, of
which the last ends there, the diagnostics before it, the checkpoints not after it, and every event
and every state on the way. -/
theorem tokenize_local (cfg : Config) {t : List Char} (h : LineStart t) (u v : List Char) :
    (Lexeme.throughLines (t.count '\n') (tokenize (t ++ u) cfg).tokens =
        Lexeme.throughLines (t.count '\n') (tokenize (t ++ v) cfg).tokens) ∧
      (0 < t.count '\n' → ∃ ls l,
        Lexeme.throughLines (t.count '\n') (tokenize (t ++ u) cfg).tokens = ls ++ [l] ∧
          (ls ++ [l]).countP Lexeme.endsLine = t.count '\n' ∧ l.endsLine = true ∧
          l.span.stop = byteLength t) ∧
      ((tokenize (t ++ u) cfg).diagnostics.filter (·.offset < byteLength t) =
        (tokenize (t ++ v) cfg).diagnostics.filter (·.offset < byteLength t)) ∧
      ((tokenize (t ++ u) cfg).checkpoints.filter (·.offset ≤ byteLength t) =
        (tokenize (t ++ v) cfg).checkpoints.filter (·.offset ≤ byteLength t)) ∧
      ∃ k, ((Lexer.ofSource (t ++ u) cfg).after k).position = byteLength t ∧ ∀ n, n ≤ k →
        ((Lexer.ofSource (t ++ u) cfg).after n).position =
            ((Lexer.ofSource (t ++ v) cfg).after n).position ∧
          ((Lexer.ofSource (t ++ u) cfg).after n).state =
            ((Lexer.ofSource (t ++ v) cfg).after n).state ∧
          (n < k → ((Lexer.ofSource (t ++ u) cfg).after n).step.1 =
            ((Lexer.ofSource (t ++ v) cfg).after n).step.1) := by
  obtain ⟨ms, s, at', text, leads⟩ := leads_of_lineStart cfg h (.initial cfg.maxDepth)
  have count : (Output.ofStrides 0 0 ms).tokens.countP Lexeme.endsLine = t.count '\n' := by
    rw [← Output.ofStrides_map_extend [], Output.countP_endsLine_ofStrides, ← (leads []).count_newline,
      textOf_map_extend, text]
  have last : ∀ l ∈ (Output.ofStrides 0 0 ms).tokens.getLast?,
      l.endsLine = true ∧ l.span.stop = byteLength t := by
    intro l hl
    have := Output.getLast?_tokens 0 0 at' hl
    rwa [text, Nat.zero_add] at this
  -- what stands before the line start is the same for every text behind
  have cut (w : List Char) : ∃ y, tokenize (t ++ w) cfg = (Output.upTo cfg ms).append y ∧
      Output.CutAt (byteLength t) (tokenCount ms) (.upTo cfg ms) y := by
    have hc := cutAt_of_leads (leads w)
    have ht := tokenize_of_leads (leads w)
    rw [upTo_map_extend] at hc ht
    rw [textOf_map_extend, tokenCount_map_extend, text] at hc
    exact ⟨_, ht, hc⟩
  obtain ⟨y, hy, cutY⟩ := cut u
  obtain ⟨z, hz, cutZ⟩ := cut v
  have through (y : Output) :
      Lexeme.throughLines (t.count '\n') ((Output.upTo cfg ms).append y).tokens =
        (Output.ofStrides 0 0 ms).tokens :=
    Lexeme.throughLines_append y.tokens count fun l hl => (last l hl).1
  obtain ⟨stop, alike⟩ := Lexer.At.alike (Lexer.at_ofSource (t ++ u) cfg)
    (Lexer.at_ofSource (t ++ v) cfg) rfl (leads u) (leads v)
  rw [text, Nat.zero_add] at stop
  rw [hy, hz, through, through, cutY.diagnostics_before, cutZ.diagnostics_before,
    cutY.checkpoints_before, cutZ.checkpoints_before]
  refine ⟨rfl, fun pos => ?_, rfl, rfl, ms.length, stop, alike⟩
  rcases List.eq_nil_or_concat (Output.ofStrides 0 0 ms).tokens with none | ⟨ls, l, some⟩
  · rw [none] at count
    exact absurd count (Nat.ne_of_lt pos)
  · rw [List.concat_eq_append] at some
    obtain ⟨ends, stops⟩ := last l (by rw [some, List.getLast?_concat]; rfl)
    exact ⟨ls, l, some, some ▸ count, ends, stops⟩

theorem tokenize_local_of_cut_line : LineStart "#x\n\t\ty\r\n".toList ∧
    Lexeme.throughLines 2 (tokenize "#x\n\t\ty\r\n\t1e+".toList
        { commentMark := some '#', maxDepth := 1 }).tokens =
      Lexeme.throughLines 2 (tokenize "#x\n\t\ty\r\n\r".toList
        { commentMark := some '#', maxDepth := 1 }).tokens :=
  ⟨.inr (by decide), (tokenize_local { commentMark := some '#', maxDepth := 1 }
    (t := "#x\n\t\ty\r\n".toList) (.inr (by decide)) "\t1e+".toList "\r".toList).1⟩

end Offside
