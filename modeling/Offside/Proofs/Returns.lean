import Mathlib.Data.List.Forall2
import Offside.Proofs.Coverage

/-!
# Returns in front of line feeds

Where returns belong to the terminators, a text with a return in front of each line feed is lexed
like the text without. The two lexers stand at twin spots all the time (`Spot.Twin`): the same state,
and the same text ahead but for the returns, of which one may just have been passed over with the
indentation of a blank line. So they meet twin readings, twin strides and twin tokens
(`tokenize_withReturns`).
-/

namespace Offside

def withReturns (t : List Char) : List Char := t.flatMap fun c => if c = '\n' then ['\r', '\n'] else [c]

@[simp] theorem withReturns_nil : withReturns [] = [] := rfl

@[simp] theorem withReturns_newline (t : List Char) :
    withReturns ('\n' :: t) = '\r' :: '\n' :: withReturns t := rfl

theorem withReturns_cons {c : Char} (h : c ≠ '\n') (t : List Char) :
    withReturns (c :: t) = c :: withReturns t := by
  simp [withReturns, h]

@[simp] theorem withReturns_append (u v : List Char) :
    withReturns (u ++ v) = withReturns u ++ withReturns v := List.flatMap_append

theorem withReturns_of_not_mem : ∀ {t : List Char}, '\n' ∉ t → withReturns t = t
  | [], _ => rfl
  | c :: t, h => by
    obtain ⟨hc, ht⟩ := not_or.mp (mt List.mem_cons.mpr h)
    rw [withReturns_cons (Ne.symm hc), withReturns_of_not_mem ht]

theorem withReturns_eq_nil_iff {t : List Char} : withReturns t = [] ↔ t = [] := by
  cases t with
  | nil => simp
  | cons c t =>
    by_cases hc : c = '\n'
    · subst hc; simp
    · simp [withReturns_cons hc]

/-! ## Twins -/

/-- Spots of lexers that do the same, the second with returns in front of the line feeds. -/
inductive Spot.Twin : Spot → Spot → Prop
  | same (s : State) {t : List Char} : '\r' ∉ t → Twin ⟨s, t⟩ ⟨s, withReturns t⟩
  /-- The return is behind the second lexer, and the line feed ahead. -/
  | between (s : State) {t : List Char} : '\r' ∉ t → Twin ⟨s, '\n' :: t⟩ ⟨s, '\n' :: withReturns t⟩

structure Piece.Twin {α : Type} (lineBreak : α) (p q : Piece α) : Prop where
  sign : q.sign = p.sign
  passes : q.before = [] ↔ p.before = []
  takes : q.text = [] ↔ p.text = []
  text : p.sign ≠ lineBreak → q.text = p.text
  next : p.next.Twin q.next

theorem Spot.Twin.state {a b : Spot} (h : a.Twin b) : b.state = a.state := by cases h <;> rfl

namespace Piece.Twin

variable {α : Type} {lineBreak : α} {p q : Piece α}

theorem whole (h : p.Twin lineBreak q) : q.whole = [] ↔ p.whole = [] := by
  rw [Piece.whole, Piece.whole, List.append_eq_nil_iff, List.append_eq_nil_iff, h.passes, h.takes]

theorem prepend (h : p.Twin lineBreak q) {v w : List Char} (hw : w = [] ↔ v = []) :
    (p.prepend v).Twin lineBreak (q.prepend w) where
  sign := h.sign
  passes := by simp only [Piece.prepend, List.append_eq_nil_iff, hw, h.passes]
  takes := h.takes
  text := h.text
  next := h.next

theorem of_next (x : α) (v w : List Char) {a b : Spot} (h : a.Twin b) :
    (Piece.mk x v w a).Twin lineBreak ⟨x, v, w, b⟩ :=
  ⟨rfl, .rfl, .rfl, fun _ => rfl, h⟩

end Piece.Twin

/-! ## Twin readings -/

theorem while_withReturns {q : Char → Bool} (ret : q '\r' = false) (feed : q '\n' = false) :
    ∀ t : List Char, (withReturns t).takeWhile q = t.takeWhile q ∧
      (withReturns t).dropWhile q = withReturns (t.dropWhile q)
  | [] => ⟨rfl, rfl⟩
  | c :: t => by
    by_cases hc : c = '\n'
    · subst hc; simp [ret, feed]
    · rw [withReturns_cons hc]
      by_cases hq : q c = true
      · simp [hq, while_withReturns ret feed t]
      · simp [hq, withReturns_cons hc]

/-- Indentation is the same with returns, but that of a line with nothing behind it takes one. -/
theorem indent_withReturns {q : Char → Bool} (ret : q '\r' = true) (feed : q '\n' = false) :
    ∀ t : List Char,
      (∃ r, t.dropWhile q = '\n' :: r ∧ (withReturns t).takeWhile q = t.takeWhile q ++ ['\r'] ∧
          (withReturns t).dropWhile q = '\n' :: withReturns r) ∨
        (t.dropWhile q).head? ≠ some '\n' ∧ (withReturns t).takeWhile q = t.takeWhile q ∧
          (withReturns t).dropWhile q = withReturns (t.dropWhile q)
  | [] => .inr ⟨nofun, rfl, rfl⟩
  | c :: t => by
    by_cases hc : c = '\n'
    · subst hc
      exact .inl ⟨t, by simp [feed], by simp [ret, feed], by simp [ret, feed]⟩
    · rw [withReturns_cons hc]
      by_cases hq : q c = true
      · simpa [hq] using indent_withReturns ret feed t
      · exact .inr (by simp [hq, hc, withReturns_cons hc])

theorem not_mem_dropWhile {q : Char → Bool} {x : Char} {t : List Char} (h : x ∉ t) : x ∉ t.dropWhile q :=
  fun hm => h ((List.dropWhile_sublist q).mem hm)

namespace Scan

section
variable {cfg : Config} (crlf : cfg.crlf = true)
include crlf

theorem isIndent_return : cfg.isIndent '\r' = true := by
  simp [Config.isIndent, Config.isFiller, crlf]

theorem measure_withReturns (t : List Char) : cfg.measure (withReturns t) = cfg.measure t := by
  have ind := indent_withReturns (isIndent_return crlf) (isIndent_newline cfg) t
  unfold Config.measure Config.depthOf
  rcases ind with ⟨r, drop, take, drop'⟩ | ⟨head, take, drop⟩
  · simp [drop, drop']
  · rw [take, drop]
    cases ht : t.dropWhile cfg.isIndent with
    | nil => rfl
    | cons c r =>
      rw [ht] at head
      rw [withReturns_cons (by simpa using head)]

theorem twin_newline {s : State} {r : List Char} {b : Spot} (hr : '\r' ∉ r)
    (h : Spot.Twin ⟨s, '\n' :: r⟩ b) :
    (reading cfg cfg.kinds ⟨s, '\n' :: r⟩).Twin (.produced .lineBreak) (reading cfg cfg.kinds b) := by
  have next : Spot.Twin ⟨{ s with atLineStart := true }, r⟩
      ⟨{ s with atLineStart := true }, withReturns r⟩ := .same _ hr
  rw [reading_newline]
  cases h with
  | same =>
    rw [withReturns_newline, reading_return crlf]
    exact ⟨rfl, .rfl, by simp [readReturn], fun ne => absurd rfl ne, next⟩
  | between =>
    rw [reading_newline]
    exact .of_next _ _ _ next

omit crlf in
theorem twin_line (s : State) (depth : Nat) {w r : List Char} (hw : '\n' ∉ w) (hwr : '\r' ∉ w ++ r) :
    (readLine cfg cfg.kinds s depth w r).Twin (.produced .lineBreak)
      (readLine cfg cfg.kinds s depth w (withReturns r)) := by
  have behind (t : State) : Spot.Twin ⟨t, r⟩ ⟨t, withReturns r⟩ :=
    .same t fun hm => hwr (List.mem_append_right w hm)
  have again (t : State) : Spot.Twin ⟨t, w ++ r⟩ ⟨t, w ++ withReturns r⟩ := by
    have := Spot.Twin.same t hwr
    rwa [withReturns_append, withReturns_of_not_mem hw] at this
  unfold readLine
  split
  · split
    · cases s.stack.push depth with
      | ok stack => exact .of_next _ _ _ (behind _)
      | error e => exact .of_next _ _ _ (behind _)
    · exact .of_next _ _ _ (behind _)
  · split
    · split
      · split
        · exact .of_next _ _ _ (again _)
        · exact .of_next _ _ _ (behind _)
      · exact .of_next _ _ _ (behind _)
    · split
      · exact .of_next _ _ _ (behind _)
      · exact .of_next _ _ _ (behind _)

theorem twin_indentation {s : State} {x : Char} {r : List Char} (hx : Plain cfg x) (hr : '\r' ∉ x :: r) :
    (readIndentation cfg cfg.kinds ⟨s, x :: r⟩).Twin (.produced .lineBreak)
      (readIndentation cfg cfg.kinds ⟨s, withReturns (x :: r)⟩) := by
  have parts := List.takeWhile_append_dropWhile (p := cfg.isIndent) (l := x :: r)
  have noFeed := not_mem_takeWhile (isIndent_newline cfg) (x :: r)
  unfold readIndentation
  simp only [measure_withReturns crlf]
  rcases indent_withReturns (isIndent_return crlf) (isIndent_newline cfg) (x :: r) with
    ⟨u, drop, take, drop'⟩ | ⟨-, take, drop⟩
  · have blank : cfg.measure (x :: r) = .blank := by simp [Config.measure, drop]
    -- the second lexer passes over the return, the first over some indentation at least
    have some := indent_ne_nil_of_blank hx blank
    have hu : '\r' ∉ u := fun hm => not_mem_dropWhile hr (drop ▸ List.mem_cons_of_mem '\n' hm)
    simp only [blank, drop, take, drop']
    exact ⟨rfl, by simp [some], .rfl, fun _ => rfl, .between _ hu⟩
  · rw [take, drop]
    cases cfg.measure (x :: r) with
    | line depth => exact twin_line _ depth noFeed (by rwa [parts])
    | blank =>
      have empty : (withReturns ((x :: r).dropWhile cfg.isIndent)).isEmpty =
          ((x :: r).dropWhile cfg.isIndent).isEmpty := by
        rw [Bool.eq_iff_iff, List.isEmpty_iff, List.isEmpty_iff, withReturns_eq_nil_iff]
      simp only [empty]
      exact .of_next _ _ _ (.same _ (not_mem_dropWhile hr))

theorem twin_comment {s : State} {x : Char} {r : List Char} (hn : x ≠ '\n')
    (hr : ¬ (x = '\r' ∧ cfg.crlf = true)) (hc : cfg.isCommentMark x = true) (ht : '\r' ∉ x :: r) :
    (reading cfg cfg.kinds ⟨s, x :: r⟩).Twin (.produced .lineBreak)
      (reading cfg cfg.kinds ⟨s, withReturns (x :: r)⟩) := by
  have ends {c : Char} (h : cfg.endsComment c = true) : (fun y => !cfg.endsComment y) c = false := by
    simp [h]
  obtain ⟨take, drop⟩ := while_withReturns (q := fun y => !cfg.endsComment y)
    (ends (by simp [Config.endsComment, crlf])) (ends (endsComment_newline cfg)) (x :: r)
  rw [withReturns_cons hn] at take drop ⊢
  rw [reading_comment hn hr hc, reading_comment hn hr hc, take, drop]
  exact .of_next _ _ _ (.same _ (not_mem_dropWhile ht))

theorem twin_plain {s : State} {x : Char} {r : List Char} (hx : Plain cfg x) (ht : '\r' ∉ x :: r) :
    (reading cfg cfg.kinds ⟨s, x :: r⟩).Twin (.produced .lineBreak)
      (reading cfg cfg.kinds ⟨s, withReturns (x :: r)⟩) := by
  have cons := withReturns_cons hx.newline r
  cases hs : s.atLineStart with
  | false =>
    have same := Spot.Twin.same s ht
    rw [cons] at same ⊢
    rw [reading_inside hx hs, reading_inside hx hs]
    exact .of_next _ _ _ same
  | true =>
    have same := twin_indentation crlf (s := s) hx ht
    rw [cons] at same ⊢
    rwa [reading_start hx hs, reading_start hx hs]

theorem twin_reading {a b : Spot} (h : a.Twin b) :
    (reading cfg cfg.kinds a).Twin (.produced .lineBreak) (reading cfg cfg.kinds b) := by
  cases h with
  | between s hr => exact twin_newline crlf hr (.between s hr)
  | @same s t ht =>
    cases t with
    | nil =>
      have ending := (readEnd_whole cfg cfg.kinds s).2
      have same := Spot.Twin.same (readEnd cfg cfg.kinds s).next.state ht
      refine .of_next _ _ _ ?_
      rwa [withReturns_nil, ← ending] at same
    | cons x r =>
      by_cases hn : x = '\n'
      · subst hn
        exact twin_newline crlf (fun hm => ht (List.mem_cons_of_mem _ hm)) (.same s ht)
      have hr : ¬ (x = '\r' ∧ cfg.crlf = true) := by
        rintro ⟨rfl, -⟩
        exact ht List.mem_cons_self
      by_cases hc : cfg.isCommentMark x = true
      · exact twin_comment crlf hn hr hc ht
      · exact twin_plain crlf ⟨hn, hr, hc⟩ ht

end

end Scan

/-! ## Twin strides -/

theorem Content.lexOne_withReturns {c : Char} {r : List Char} (hn : c ≠ '\n') :
    lexOne (withReturns (c :: r)) =
      (lexOne (c :: r)).map fun t => { t with rest := withReturns t.rest } := by
  have rest {w : List Char} (hw : '\n' ∉ w) {t : Taken} (ht : lexOne (c :: w) = some t) :
      withReturns t.rest = t.rest := by
    refine withReturns_of_not_mem fun hm => ?_
    have := List.mem_append_right t.lexeme hm
    rw [← lexOne_append ht] at this
    exact (List.mem_cons.mp this).elim (Ne.symm hn) hw
  rw [withReturns_cons hn]
  by_cases hr : '\n' ∈ r
  · -- up to the first line feed both texts are the same, and nothing found reaches beyond
    obtain ⟨w, u, rfl, hw⟩ := List.eq_append_cons_of_mem hr
    obtain ⟨t, ht⟩ := exists_lexOne c w
    rw [withReturns_append, withReturns_of_not_mem hw, withReturns_newline,
      lexOne_append_of_candidates (candidates_append_of_stop _ (.inl rfl)),
      lexOne_append_of_candidates (candidates_append_of_stop _ (.inr rfl)), ht]
    simp [rest hw ht]
  · obtain ⟨t, ht⟩ := exists_lexOne c r
    rw [withReturns_of_not_mem hr, ht, Option.map_some, rest hr ht]

theorem Content.lexOne_twin {a b : Spot} {t : Taken} (h : a.Twin b) (hn : a.rest.head? ≠ some '\n')
    (ht : lexOne a.rest = some t) :
    '\r' ∉ t.rest ∧ lexOne b.rest = some { t with rest := withReturns t.rest } := by
  cases h with
  | between => exact absurd rfl hn
  | @same s r hr =>
    cases r with
    | nil => cases ht
    | cons c r =>
      refine ⟨fun hm => hr ?_, ?_⟩
      · exact (lexOne_append ht : c :: r = _) ▸ List.mem_append_right _ hm
      · rw [lexOne_withReturns (fun e => hn (by rw [e]; rfl)), ht, Option.map_some]

section
variable {cfg : Config} (crlf : cfg.crlf = true) {a b : Spot}
include crlf

theorem twin_stride (h : a.Twin b) :
    (stride cfg a).Twin (.token (.scanned .lineBreak)) (stride cfg b) := by
  fun_induction stride cfg a generalizing b with
  | case1 a p k =>
    rename_i hs
    have twin := Scan.twin_reading crlf h
    rw [stride_of_produced (twin.sign.trans hs)]
    refine ⟨rfl, twin.passes, twin.takes, fun ne => twin.text fun e => ne ?_, twin.next⟩
    cases hs.symm.trans e
    rfl
  | case2 a p e =>
    rename_i hs
    have twin := Scan.twin_reading crlf h
    rw [stride_of_refused (twin.sign.trans hs)]
    refine ⟨rfl, twin.passes, twin.takes, fun _ => twin.text fun e' => ?_, twin.next⟩
    cases hs.symm.trans e'
  | case3 a p hs hw t =>
    rename_i ht
    have twin := Scan.twin_reading crlf h
    obtain ⟨noReturn, ht'⟩ := Content.lexOne_twin h (head_ne_newline cfg a hs) ht
    rw [stride_of_content (twin.sign.trans hs) (twin.whole.mpr hw) ht', twin.next.state]
    exact .of_next _ _ _ (.same _ noReturn)
  | case4 a p hs hw =>
    rename_i ht
    have twin := Scan.twin_reading crlf h
    have none : b.rest = [] := by
      have ha := Content.lexOne_eq_none_iff.mp ht
      cases h with
      | between => cases ha
      | same => exact withReturns_eq_nil_iff.mpr ha
    rw [stride_of_end (twin.sign.trans hs) (twin.whole.mpr hw) (Content.lexOne_eq_none_iff.mpr none)]
    exact .of_next _ _ _ twin.next
  | case5 a p hs hw =>
    rename_i ih
    have twin := Scan.twin_reading crlf h
    rw [stride_of_passed (twin.sign.trans hs) (mt twin.whole.mp hw)]
    exact (ih twin.next).prepend twin.whole

theorem twin_strides (h : a.Twin b) :
    List.Forall₂ (Piece.Twin (.token (.scanned .lineBreak))) (strides cfg a) (strides cfg b) := by
  fun_induction strides cfg a generalizing b with
  | case1 a done =>
    rw [strides_of_done ((twin_stride crlf h).sign.trans done)]
    exact .nil
  | case2 a more ih =>
    have twin := twin_stride crlf h
    rw [strides_of_ne_done (a := b) (by rw [twin.sign]; exact more)]
    exact .cons twin (ih twin.next)

end

/-! ## Twin outputs -/

def Lexeme.Alike (source source' : List Char) (l l' : Lexeme) : Prop :=
  l'.token = l.token ∧ (l.token ≠ .scanned .lineBreak →
    ∃ w, slice? source l.span.start l.span.stop = some w ∧
      slice? source' l'.span.start l'.span.stop = some w)

theorem Piece.slice?_text {α : Type} (m : Piece α) (u r : List Char) :
    slice? (u ++ (m.whole ++ r)) (byteLength u + byteLength m.before) (byteLength u + byteLength m.whole) =
      some m.text := by
  have := slice?_append (u ++ m.before) m.text r
  simpa [Piece.whole, Nat.add_assoc] using this

namespace Piece.Twin

variable {m n : Piece Sign} (h : m.Twin (.token (.scanned .lineBreak)) n)
include h

theorem endsLine : n.endsLine = m.endsLine := by
  rw [Bool.eq_iff_iff, endsLine_iff, endsLine_iff, h.sign, Ne, Ne, h.takes]

theorem tokenCount : Offside.tokenCount [n] = Offside.tokenCount [m] := by
  have same : n.isToken = m.isToken := by rw [Piece.isToken, Piece.isToken, h.sign]
  simp only [Offside.tokenCount, List.countP_singleton, same]

theorem lexemes (u v r t : List Char) :
    List.Forall₂ (Lexeme.Alike (u ++ (m.whole ++ r)) (v ++ (n.whole ++ t))) (m.lexemes (byteLength u))
      (n.lexemes (byteLength v)) := by
  unfold Piece.lexemes
  rw [h.sign]
  cases hs : m.sign with
  | refused | done => exact .nil
  | token k =>
    refine .cons ⟨rfl, fun ne => ⟨m.text, m.slice?_text u r, ?_⟩⟩ .nil
    have text := h.text fun e => ne (by rw [hs] at e; exact Sign.token.inj e)
    rw [← text]
    exact n.slice?_text v t

theorem ofStride (o p i : Nat) :
    (Output.ofStride p i n).diagnostics.map (·.error) = (Output.ofStride o i m).diagnostics.map (·.error) ∧
      (Output.ofStride p i n).checkpoints.map (fun c => (c.index, c.snapshot)) =
        (Output.ofStride o i m).checkpoints.map (fun c => (c.index, c.snapshot)) := by
  unfold Output.ofStride
  rw [h.sign, h.endsLine, h.next.state]
  cases m.sign with
  | token t =>
    refine ⟨rfl, ?_⟩
    simp only
    split <;> rfl
  | refused e => exact ⟨rfl, rfl⟩
  | done => exact ⟨rfl, rfl⟩

end Piece.Twin

section
variable {ms ns : List (Piece Sign)}
  (h : List.Forall₂ (Piece.Twin (.token (.scanned .lineBreak))) ms ns)
include h

theorem twin_tokens (u v r t : List Char) (i j : Nat) :
    List.Forall₂ (Lexeme.Alike (u ++ (textOf ms ++ r)) (v ++ (textOf ns ++ t)))
      (Output.ofStrides (byteLength u) i ms).tokens (Output.ofStrides (byteLength v) j ns).tokens := by
  induction h generalizing u v i j with
  | nil => exact .nil
  | @cons m n ms ns twin _ ih =>
    have first := twin.lexemes u v (textOf ms ++ r) (textOf ns ++ t)
    have behind := ih (u ++ m.whole) (v ++ n.whole) (i + tokenCount [m]) (j + tokenCount [n])
    rw [← tokens_ofStride _ i, ← tokens_ofStride _ j] at first
    simp only [byteLength_append, List.append_assoc] at first behind
    simp only [textOf_cons, List.append_assoc]
    exact List.rel_append first behind

theorem twin_ofStrides (o p i : Nat) :
    (Output.ofStrides p i ns).diagnostics.map (·.error) =
        (Output.ofStrides o i ms).diagnostics.map (·.error) ∧
      (Output.ofStrides p i ns).checkpoints.map (fun c => (c.index, c.snapshot)) =
        (Output.ofStrides o i ms).checkpoints.map (fun c => (c.index, c.snapshot)) := by
  induction h generalizing o p i with
  | nil => exact ⟨rfl, rfl⟩
  | @cons m n ms ns twin _ ih =>
    obtain ⟨errors, places⟩ := twin.ofStride o p i
    obtain ⟨errors', places'⟩ := ih (o + byteLength m.whole) (p + byteLength n.whole) (i + tokenCount [m])
    simp only [Output.ofStrides, Output.append, List.map_append, twin.tokenCount, errors, errors', places,
      places']
    exact ⟨trivial, trivial⟩

end

/-- With returns in front of the line feeds, a text has the same tokens, with the same texts but for
line breaks, the same levels are refused, and the checkpoints stand behind the same tokens and hold
the same states. -/
theorem tokenize_withReturns {cfg : Config} (crlf : cfg.crlf = true) {source : List Char}
    (h : '\r' ∉ source) :
    List.Forall₂ (Lexeme.Alike source (withReturns source)) (tokenize source cfg).tokens
        (tokenize (withReturns source) cfg).tokens ∧
      (tokenize (withReturns source) cfg).diagnostics.map (·.error) =
        (tokenize source cfg).diagnostics.map (·.error) ∧
      (tokenize (withReturns source) cfg).checkpoints.map (fun p => (p.index, p.snapshot)) =
        (tokenize source cfg).checkpoints.map (fun p => (p.index, p.snapshot)) := by
  have twins := twin_strides crlf (.same (.initial cfg.maxDepth) h)
  obtain ⟨b, leads, -⟩ := leads_to_end cfg ⟨.initial cfg.maxDepth, source⟩
  obtain ⟨c, leads', -⟩ := leads_to_end cfg ⟨.initial cfg.maxDepth, withReturns source⟩
  have tokens := twin_tokens twins [] [] b.rest c.rest 0 0
  rw [List.nil_append, List.nil_append, ← leads.split, ← leads'.split] at tokens
  obtain ⟨errors, places⟩ := twin_ofStrides twins 0 0 0
  refine ⟨?_, ?_, ?_⟩
  · rw [tokens_tokenize, tokens_tokenize]
    exact tokens
  · rw [tokenize_eq, tokenize_eq]
    exact errors
  · rw [tokenize_eq, tokenize_eq]
    exact congrArg ((0, Snapshot.encode (.initial cfg.maxDepth)) :: ·) places

theorem tokenize_withReturns_of_lines :
    withReturns "a\n\t#b\n\t\t\tc\n \n1e+".toList = "a\r\n\t#b\r\n\t\t\tc\r\n \r\n1e+".toList ∧
      '\r' ∉ "a\n\t#b\n\t\t\tc\n \n1e+".toList ∧
      (tokenize (withReturns "a\n\t#b\n\t\t\tc\n \n1e+".toList)
          { commentMark := some '#', maxDepth := 1 }).diagnostics.map (·.error) =
        (tokenize "a\n\t#b\n\t\t\tc\n \n1e+".toList
          { commentMark := some '#', maxDepth := 1 }).diagnostics.map (·.error) :=
  ⟨rfl, by decide, (@tokenize_withReturns { commentMark := some '#', maxDepth := 1 } rfl
    "a\n\t#b\n\t\t\tc\n \n1e+".toList (by decide)).2.1⟩

end Offside
