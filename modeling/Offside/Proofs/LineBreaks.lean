import Offside.Proofs.Coverage

/-!
# Line breaks

Each line feed of a source is the end of one token, a line break, and every other line break stands
for the end of the text. At most one does, and behind it only levels are closed
(`lineBreaks_tokenize`). Whether one does is decided by the flags the scanner has at the end. By
default there is always one. Otherwise there is one if the last line holds something other than
stray returns, so a last line of stray returns alone is not terminated
(`count_lineBreaks_whenMissing`).
-/

namespace Offside

/-! ## Line feeds -/

def Span.endsWith (n : Nat) (s : Span) : Bool := decide (s.start ≤ n) && s.stop == n + 1

theorem Span.endsWith_iff {n : Nat} {s : Span} : s.endsWith n = true ↔ s.start ≤ n ∧ s.stop = n + 1 := by
  simp [endsWith]

theorem filter_eq_singleton {α : Type} {q : α → Bool} {a : α} {l : List α} (ha : a ∈ l)
    (hq : q a = true) (once : l.Pairwise fun b c => q b = true → q c = false) : l.filter q = [a] := by
  induction l with
  | nil => cases ha
  | cons b l ih =>
    obtain ⟨hb, hl⟩ := List.pairwise_cons.mp once
    rcases List.mem_cons.mp ha with rfl | ha
    · have none : l.filter q = [] := List.filter_eq_nil_iff.mpr fun c hc => by simp [hb c hc hq]
      rw [List.filter_cons_of_pos hq, none]
    · have hne : ¬ q b = true := by
        intro e
        rw [hb a ha e] at hq
        cases hq
      rw [List.filter_cons_of_neg hne, ih ha hl]

section
variable {cfg : Config} {u v t : List Char} {ls : List Lexeme} {l : Lexeme}

theorem Covers.once (h : Covers cfg u t ls) (n : Nat) :
    ls.Pairwise fun l m => l.span.endsWith n = true → m.span.endsWith n = false := by
  refine h.ordered.imp ?_
  intro l m le hl
  rw [Bool.eq_false_iff]
  intro hm
  rw [Span.endsWith_iff] at hl hm
  omega

theorem tail_eq_nil {w w' : List Char} (hv : '\n' ∉ v) (h : v ++ ['\n'] = w ++ '\n' :: w') : w' = [] := by
  rcases append_split_of_cons h with ⟨a, -, ha⟩ | ⟨a, rfl, -⟩
  · have len := congrArg List.length ha
    rw [List.length_append, List.length_cons, List.length_cons] at len
    exact List.length_eq_zero_iff.mp (by rw [List.length_nil] at len; omega)
  · exact absurd (by simp) hv

/-- A token with a line feed in its text is a line break, and the line feed is its end. -/
theorem Fits.newline {w w' r : List Char} {t : Token} (h : Fits cfg (w ++ '\n' :: w') r t) :
    t = .scanned .lineBreak ∧ w' = [] := by
  have mem : '\n' ∈ w ++ '\n' :: w' := by simp
  cases t with
  | content => exact absurd mem h.2
  | scanned k =>
    cases k with
    | comment => exact absurd mem h.2
    | lineBreak =>
      refine ⟨rfl, ?_⟩
      rcases h with ⟨h, -⟩ | h | ⟨-, h⟩
      · simp at h
      · exact tail_eq_nil (v := []) (by simp) h.symm
      · exact tail_eq_nil (v := ['\r']) (by simp) h.symm
    | indentOpen | indentClose | sameLevel =>
      have none : w ++ '\n' :: w' = [] := h
      simp at none

theorem Covers.lineFeed {x r : List Char} (h : Covers cfg [] (x ++ '\n' :: r) ls) :
    ∃ l, ls.filter (·.span.endsWith (byteLength x)) = [l] ∧ l.token = .scanned .lineBreak := by
  rcases h.character rfl with ins | ⟨l, hl, v, w, w', r', rfl, rfl, stands⟩
  · exact absurd rfl (insignificant_ne_newline ins)
  · obtain ⟨token, rfl⟩ := stands.fits.newline
    have ends : l.span.endsWith (byteLength (v ++ w)) = true := by
      rw [Span.endsWith_iff, stands.span]
      have one : '\n'.utf8Size = 1 := rfl
      simp [one, Nat.add_assoc]
    exact ⟨l, filter_eq_singleton hl ends (h.once _), token⟩

theorem Covers.terminator (h : Covers cfg [] t ls) (hl : l ∈ ls) (ends : l.endsLine = true) :
    slice? t l.span.start l.span.stop = some ['\n'] ∨
      cfg.crlf = true ∧ slice? t l.span.start l.span.stop = some ['\r', '\n'] := by
  obtain ⟨v, w, r, rfl, span, fits⟩ := h.stands hl
  obtain ⟨token, taken⟩ := Lexeme.endsLine_iff.mp ends
  rw [token] at fits
  rw [List.nil_append] at span
  have text : slice? (v ++ (w ++ r)) l.span.start l.span.stop = some w := by
    rw [span]
    exact slice?_append v w r
  rcases fits with ⟨rfl, -⟩ | rfl | ⟨crlf, rfl⟩
  · rw [span, List.append_nil] at taken
    exact absurd taken (Nat.lt_irrefl _)
  · exact .inl text
  · exact .inr ⟨crlf, text⟩

end

/-! ## The line break at the end -/

/-- A line break that stands for the end of the text. -/
def Piece.isFinalBreak (m : Piece Sign) : Bool := m.sign == .token (.scanned .lineBreak) && m.text.isEmpty

def Lexeme.isFinalBreak (l : Lexeme) : Bool := l.token.isLineBreak && l.span.isEmpty

theorem Lexeme.isFinalBreak_iff {l : Lexeme} :
    l.isFinalBreak = true ↔ l.token = .scanned .lineBreak ∧ l.span.stop ≤ l.span.start := by
  simp [isFinalBreak, Token.isLineBreak, Span.isEmpty]

theorem Covers.span_of_isFinalBreak {cfg : Config} {t : List Char} {ls : List Lexeme} {l : Lexeme}
    (h : Covers cfg [] t ls) (hl : l ∈ ls) (final : l.isFinalBreak = true) :
    l.span = ⟨byteLength t, byteLength t⟩ := by
  obtain ⟨v, w, r, rfl, stands⟩ := h.stands hl
  obtain ⟨token, empty⟩ := Lexeme.isFinalBreak_iff.mp final
  have sized := stands.sized
  rw [Lexeme.Sized, token] at sized
  exact sized.resolve_left (Nat.not_lt.mpr empty)

theorem isFinalBreak_lexeme {m : Piece Sign} {t : Token} (h : m.sign = .token t) (o : Nat) :
    Lexeme.isFinalBreak ⟨t, o + byteLength m.before, o + byteLength m.whole⟩ = m.isFinalBreak := by
  rw [Lexeme.isFinalBreak, Piece.isFinalBreak, h, isEmpty_span]
  cases t with
  | scanned k => cases k <;> rfl
  | content c => rfl

section
variable {cfg : Config} {u : List Char} {a b : Spot}

theorem Scan.Turn.count_finalBreak {p : Piece Verdict} (t : Turn cfg a p) :
    a.state.finalBreakDone.toNat + (p.sign == .produced .lineBreak && p.text.isEmpty).toNat =
      p.next.state.finalBreakDone.toNat := by
  cases t with
  | @finalBreak s due =>
    have unset : s.finalBreakDone = false := by
      simp only [finalBreakDue, Bool.and_eq_true, Bool.not_eq_true'] at due
      exact due.1
    simp [unset]
  | settled _ _ _ settles => cases settles <;> rfl
  | blank => simp only; split <;> rfl
  | lineFeed | returnLineFeed | comment | lastClose | closesOne | theEnd | loneReturn | inside | tooDeep
    | level => rfl

theorem Advance.count_finalBreak {m : Piece Sign} (t : Advance cfg a m) :
    a.state.finalBreakDone.toNat + m.isFinalBreak.toNat = m.next.state.finalBreakDone.toNat := by
  induction t with
  | @scanned a b k v w t =>
    have flag := t.count_finalBreak
    cases k <;> exact flag
  | refused t | content t | done t => exact t.count_finalBreak
  | passed t _ _ ih => exact (congrArg (· + _) t.count_finalBreak).trans ih

theorem Leads.count_finalBreak {ms : List (Piece Sign)} (h : Leads cfg a ms b) :
    a.state.finalBreakDone.toNat + ms.countP Piece.isFinalBreak = b.state.finalBreakDone.toNat := by
  induction h with
  | refl => rfl
  | @step a b ms _ _ ih =>
    have flag := (advance cfg a).count_finalBreak
    rw [List.countP_cons, ← ih, ← flag]
    by_cases final : (stride cfg a).isFinalBreak = true
    · simp [final]; omega
    · simp [final]

theorem Advance.ended {m : Piece Sign} (t : Advance cfg a m)
    (h : a.state.finalBreakDone = true ∨ m.isFinalBreak = true) : m.next.state.finalBreakDone = true := by
  have flag := t.count_finalBreak
  cases done : m.next.state.finalBreakDone with
  | true => rfl
  | false =>
    rw [done] at flag
    rcases h with h | h <;> rw [h] at flag <;> simp at flag

theorem Scan.Turn.closes {p : Piece Verdict} (t : Turn cfg a p) (rest : a.rest = [])
    (ended : a.state.finalBreakDone = true) :
    p.sign = .produced .indentClose ∨ p.sign = .nothing ∧ p.before = [] := by
  cases t with
  | finalBreak due =>
    rw [finalBreakDue, ended] at due
    cases due
  | lastClose => exact .inl rfl
  | theEnd => exact .inr ⟨rfl, rfl⟩
  | lineFeed | returnLineFeed | loneReturn | comment | inside | blank | settled | closesOne | tooDeep
    | level => cases rest

theorem Advance.closes {m : Piece Sign} (t : Advance cfg a m) (h : Tracks cfg u a)
    (ended : a.state.finalBreakDone = true) :
    m.sign = .token (.scanned .indentClose) ∨ m.sign = .done := by
  have rest := (h.ended ended).1
  cases t with
  | scanned t =>
    rcases t.closes rest ended with hs | ⟨hs, -⟩
    · cases hs; exact .inl rfl
    · cases hs
  | refused t =>
    rcases t.closes rest ended with hs | ⟨hs, -⟩ <;> cases hs
  | content _ _ ht =>
    rw [Content.lexOne_eq_none_iff.mpr rest] at ht
    cases ht
  | done => exact .inr rfl
  | passed t hw =>
    rcases t.closes rest ended with hs | ⟨-, none⟩
    · cases hs
    · exact absurd none hw

theorem Leads.closes {ms : List (Piece Sign)} (h : Leads cfg a ms b) (ha : Tracks cfg u a)
    (ended : a.state.finalBreakDone = true) : ∀ m ∈ ms, m.sign = .token (.scanned .indentClose) := by
  induction h generalizing u with
  | refl => nofun
  | @step a b ms ne _ ih =>
    have t := advance cfg a
    intro m hm
    rcases List.mem_cons.mp hm with rfl | hm
    · exact (t.closes ha ended).resolve_right ne
    · exact ih (t.tracks ha) (t.ended (.inl ended)) m hm

theorem mem_lexemes {m : Piece Sign} {o : Nat} {l : Lexeme} (h : l ∈ m.lexemes o) :
    m.sign = .token l.token ∧ l.isFinalBreak = m.isFinalBreak := by
  unfold Piece.lexemes at h
  split at h
  · next t ht =>
    obtain rfl := List.mem_singleton.mp h
    exact ⟨ht, isFinalBreak_lexeme ht o⟩
  · cases h

theorem sign_of_mem_tokens {l : Lexeme} : ∀ {ms : List (Piece Sign)} {o i : Nat},
    l ∈ (Output.ofStrides o i ms).tokens → ∃ m ∈ ms, m.sign = .token l.token
  | m :: ms, o, i, h => by
    rcases List.mem_append.mp h with h | h
    · rw [tokens_ofStride] at h
      exact ⟨m, List.mem_cons_self, (mem_lexemes h).1⟩
    · obtain ⟨n, hn, sign⟩ := sign_of_mem_tokens h
      exact ⟨n, List.mem_cons_of_mem m hn, sign⟩

theorem Leads.behind_finalBreak {ms : List (Piece Sign)} (h : Leads cfg a ms b) (ha : Tracks cfg u a)
    (o i : Nat) : (Output.ofStrides o i ms).tokens.Pairwise fun l m =>
      l.isFinalBreak = true → m.token = .scanned .indentClose := by
  induction h generalizing u o i with
  | refl => exact .nil
  | @step a b ms _ rest ih =>
    have t := advance cfg a
    have tracks := t.tracks ha
    refine List.pairwise_append.mpr ⟨?_, ih tracks _ _, ?_⟩
    · -- a stride gives one token at most
      rw [tokens_ofStride, Piece.lexemes]
      split
      · exact List.pairwise_singleton _ _
      · exact .nil
    · intro l hl m hm final
      rw [tokens_ofStride] at hl
      rw [(mem_lexemes hl).2] at final
      obtain ⟨n, hn, sign⟩ := sign_of_mem_tokens hm
      rw [rest.closes tracks (t.ended (.inr final)) n hn] at sign
      exact (Sign.token.inj sign).symm

/-! ## Line breaks counted -/

theorem Advance.finalBreakDue {m : Piece Sign} (t : Advance cfg a m) (hs : m.sign = .done) :
    Scan.finalBreakDue cfg m.next.state = false := by
  induction t with
  | scanned | refused | content => cases hs
  | done t => cases t with | theEnd due => exact due
  | passed _ _ _ ih => exact ih hs

end

theorem countP_isFinalBreak_ofStrides (o i : Nat) (ms : List (Piece Sign)) :
    (Output.ofStrides o i ms).tokens.countP Lexeme.isFinalBreak = ms.countP Piece.isFinalBreak := by
  refine Output.countP_ofStrides (fun o m t ht => isFinalBreak_lexeme ht o) (fun m none => ?_) o i ms
  rw [Piece.isFinalBreak, beq_eq_false_iff_ne.mpr (none _), Bool.false_and]

theorem countP_isLineBreak (ls : List Lexeme) : ls.countP (·.token.isLineBreak) =
    ls.countP Lexeme.endsLine + ls.countP Lexeme.isFinalBreak := by
  induction ls with
  | nil => rfl
  | cons l ls ih =>
    simp only [List.countP_cons, ih, Lexeme.endsLine, Lexeme.isFinalBreak]
    by_cases kind : l.token.isLineBreak = true
    · by_cases empty : l.span.isEmpty = true
      · simp [kind, empty]; omega
      · simp [kind, empty]; omega
    · simp [kind]

theorem countP_isLineBreak_tokenize (source : List Char) (cfg : Config) :
    (tokenize source cfg).tokens.countP (·.token.isLineBreak) =
      source.count '\n' + (tokenize source cfg).tokens.countP Lexeme.isFinalBreak := by
  obtain ⟨b, leads, done⟩ := leads_to_end cfg (.start cfg source)
  have last : (stride cfg b).endsLine = false := by rw [Piece.endsLine, done]; rfl
  have feeds : source.count '\n' = _ := congrArg (List.count '\n') (leads.text_eq done)
  rw [List.count_append, leads.count_newline, count_newline_stride, last] at feeds
  rw [countP_isLineBreak, tokens_tokenize, Output.countP_endsLine_ofStrides, feeds]
  rfl

/-- The state at the end of a source: no line break is due, and its flag counts the one there was. -/
theorem ended_tokenize (source : List Char) (cfg : Config) : ∃ s, Tracks cfg source ⟨s, []⟩ ∧
    Scan.finalBreakDue cfg s = false ∧
    (tokenize source cfg).tokens.countP Lexeme.isFinalBreak = s.finalBreakDone.toNat := by
  obtain ⟨b, leads, done⟩ := leads_to_end cfg (.start cfg source)
  have t := advance cfg b
  refine ⟨(stride cfg b).next.state, ?_, t.finalBreakDue done, ?_⟩
  · have tracks := t.tracks (leads.tracks (tracks_start cfg source))
    rw [List.nil_append, ← leads.text_eq done] at tracks
    rwa [← (stride_of_done b done).1]
  · have last : (stride cfg b).isFinalBreak = false := by rw [Piece.isFinalBreak, done]; rfl
    have before := leads.count_finalBreak
    have after := t.count_finalBreak
    rw [last] at after
    rw [tokens_tokenize, countP_isFinalBreak_ofStrides, ← after, ← before]
    exact (Nat.zero_add _).symm

/-! ## Terminators -/

section
variable {cfg : Config} {u : List Char} {s : State}

theorem finalBreakDone_of_always (h : cfg.finalBreak = .always) (due : Scan.finalBreakDue cfg s = false) :
    s.finalBreakDone = true := by
  rw [Scan.finalBreakDue, h, Bool.and_true] at due
  simpa using due

theorem Tracks.finalBreakDone_of_whenMissing (t : Tracks cfg u ⟨s, []⟩) (h : cfg.finalBreak = .whenMissing)
    (due : Scan.finalBreakDue cfg s = false) :
    s.finalBreakDone = !(lastLine u).all cfg.isReturn := by
  cases done : s.finalBreakDone with
  | true =>
    obtain ⟨x, hx, stray⟩ := (t.ended done).2 h
    have some : (lastLine u).all cfg.isReturn = false := List.all_eq_false.mpr ⟨x, hx, by simp [stray]⟩
    rw [some]; rfl
  | false =>
    have start : s.atLineStart = true := by
      rw [Scan.finalBreakDue, h, done] at due
      simpa using due
    rcases t.fresh start done with returns | ⟨-, c, hc, -⟩
    · rw [List.all_eq_true.mpr returns]; rfl
    · cases hc

end

/-- Line feeds and line breaks: each line feed ends one token, a line break, whose text is the feed
or, if returns belong to it, a return and the feed. At most one line break is empty, it stands at
the end of the text, and only closes stand behind it. By default there is one. -/
theorem lineBreaks_tokenize (source : List Char) (cfg : Config) :
    (∀ u r, source = u ++ '\n' :: r → ∃ l,
      (tokenize source cfg).tokens.filter (·.span.endsWith (byteLength u)) = [l] ∧
        l.token = .scanned .lineBreak) ∧
    (∀ l ∈ (tokenize source cfg).tokens, l.endsLine = true →
      slice? source l.span.start l.span.stop = some ['\n'] ∨
        cfg.crlf = true ∧ slice? source l.span.start l.span.stop = some ['\r', '\n']) ∧
    (tokenize source cfg).tokens.countP Lexeme.isFinalBreak ≤ 1 ∧
    (∀ l ∈ (tokenize source cfg).tokens, l.isFinalBreak = true →
      l.span = ⟨byteLength source, byteLength source⟩) ∧
    (tokenize source cfg).tokens.Pairwise (fun l m =>
      l.isFinalBreak = true → m.token = .scanned .indentClose) ∧
    (cfg.finalBreak = .always → (tokenize source cfg).tokens.countP Lexeme.isFinalBreak = 1 ∧
      (tokenize source cfg).tokens.countP (·.token.isLineBreak) = source.count '\n' + 1) := by
  have covers := covers_tokenize source cfg
  obtain ⟨s, -, due, final⟩ := ended_tokenize source cfg
  refine ⟨?_, fun l hl => covers.terminator hl, ?_, ?_, ?_, ?_⟩
  · rintro u r rfl
    exact covers.lineFeed
  · rw [final]
    exact Bool.toNat_le _
  · intro l hl
    exact covers.span_of_isFinalBreak hl
  · obtain ⟨b, leads⟩ := leads_strides cfg (.start cfg source)
    rw [tokens_tokenize]
    exact leads.behind_finalBreak (tracks_start cfg source) 0 0
  · intro always
    rw [countP_isLineBreak_tokenize, final, finalBreakDone_of_always always due]
    exact ⟨rfl, rfl⟩

/-- Without the default, a last line gets a terminator unless there is nothing in it but stray
returns, also if there are some. -/
theorem count_lineBreaks_whenMissing (source : List Char) (cfg : Config)
    (h : cfg.finalBreak = .whenMissing) :
    (tokenize source cfg).tokens.countP (·.token.isLineBreak) =
        source.count '\n' + (if (lastLine source).all cfg.isReturn then 0 else 1) ∧
      ((tokenize source cfg).tokens.countP (·.token.isLineBreak) =
          source.count '\n' + (if lastLine source = [] then 0 else 1) ↔
        lastLine source = [] ∨ ∃ x ∈ lastLine source, cfg.isReturn x = false) := by
  obtain ⟨s, tracks, due, final⟩ := ended_tokenize source cfg
  rw [tracks.finalBreakDone_of_whenMissing h due] at final
  have stray : (∃ x ∈ lastLine source, cfg.isReturn x = false) ↔
      (lastLine source).all cfg.isReturn = false := by simp
  rw [stray, countP_isLineBreak_tokenize, final]
  by_cases empty : lastLine source = []
  · simp [empty]
  · cases (lastLine source).all cfg.isReturn <;> simp [empty]

theorem count_lineBreaks_blank_tail :
    ({ finalBreak := .whenMissing } : Config).finalBreak = .whenMissing ∧
      (tokenize "a\n \r".toList { finalBreak := .whenMissing }).tokens.countP (·.token.isLineBreak) = 2 :=
  ⟨rfl, (count_lineBreaks_whenMissing "a\n \r".toList { finalBreak := .whenMissing } rfl).1.trans (by decide)⟩

theorem count_lineBreaks_stray_return :
    (tokenize "a\n\r".toList { finalBreak := .whenMissing }).tokens.countP (·.token.isLineBreak) ≠
      "a\n\r".toList.count '\n' + (if lastLine "a\n\r".toList = [] then 0 else 1) := by
  decide +kernel

end Offside
