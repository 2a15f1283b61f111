import Offside.Proofs.Checkpoints

/-!
# Blank lines leave no trace but a line break

At the start of a line, indentation that runs into a line feed is one line break, and the scanner
remembers what it did before (`strides_blank`). Which part of the indentation belongs to the line
break and which is passed over depends on where the returns stand. A checkpoint is at the start of a
line, so with a blank line put in there a text gives that line break more, and what is behind it
moves (`tokenize_blankLine`).
-/

namespace Offside

def Config.Blank (cfg : Config) (w : List Char) : Prop :=
  ∀ x ∈ w, cfg.isIndent x = true ∧ ¬ cfg.isCommentMark x = true

instance Config.Blank.decidable (cfg : Config) (w : List Char) : Decidable (cfg.Blank w) :=
  List.decidableBAll _ w

section
variable {cfg : Config} {w : List Char}

theorem Config.Blank.tail {x : Char} (h : cfg.Blank (x :: w)) : cfg.Blank w :=
  fun y hy => h y (List.mem_cons_of_mem x hy)

theorem Config.Blank.not_mem_newline (h : cfg.Blank w) : '\n' ∉ w := by
  intro hm
  have := (h '\n' hm).1
  rw [Scan.isIndent_newline] at this
  cases this

/-! ## Through a blank line -/

/-- A stride that is the line break of a blank line: it takes the line and ends up in the same state. -/
structure Piece.OfBlank (s : State) (w r : List Char) (m : Piece Sign) : Prop where
  sign : m.sign = .token (.scanned .lineBreak)
  whole : m.whole = w ++ ['\n']
  text : m.text ≠ []
  next : m.next = ⟨s, r⟩

theorem Piece.OfBlank.prepend {s : State} {v r : List Char} {m : Piece Sign} (h : m.OfBlank s w r) :
    (m.prepend v).OfBlank s (v ++ w) r :=
  ⟨h.sign, by rw [Piece.whole_prepend, h.whole, List.append_assoc], h.text, h.next⟩

section
variable {s : State} (flag : s.atLineStart = true) (r : List Char)
include flag

theorem strides_lineFeed :
    strides cfg ⟨s, '\n' :: r⟩ =
      ⟨.token (.scanned .lineBreak), [], ['\n'], ⟨s, r⟩⟩ :: strides cfg ⟨s, r⟩ := by
  have same : { s with atLineStart := true } = s := by rw [← flag]
  rw [strides_of_produced Scan.reading_newline, same]

theorem strides_returnLineFeed (crlf : cfg.crlf = true) : strides cfg ⟨s, '\r' :: '\n' :: r⟩ =
    ⟨.token (.scanned .lineBreak), [], ['\r', '\n'], ⟨s, r⟩⟩ :: strides cfg ⟨s, r⟩ := by
  have same : { s with atLineStart := true } = s := by rw [← flag]
  have reads : Scan.reading cfg cfg.kinds ⟨s, '\r' :: '\n' :: r⟩ =
      ⟨.produced .lineBreak, [], ['\r', '\n'], ⟨s, r⟩⟩ := by
    rw [Scan.reading_return crlf, Scan.readReturn, same]
  exact strides_of_produced reads

theorem reading_blank {x : Char} (hx : Plain cfg x) (h : cfg.Blank (x :: w)) :
    Scan.reading cfg cfg.kinds ⟨s, x :: w ++ '\n' :: r⟩ = ⟨.nothing, x :: w, [], ⟨s, '\n' :: r⟩⟩ := by
  have indent : ∀ y ∈ x :: w, cfg.isIndent y = true := fun y hy => (h y hy).1
  have stop : cfg.isIndent '\n' = false := Scan.isIndent_newline cfg
  have take : (x :: w ++ '\n' :: r).takeWhile cfg.isIndent = x :: w := by
    rw [List.takeWhile_append_of_pos indent, List.takeWhile_cons_of_neg (by simp [stop]), List.append_nil]
  have drop : (x :: w ++ '\n' :: r).dropWhile cfg.isIndent = '\n' :: r := by
    rw [List.dropWhile_append_of_pos indent, List.dropWhile_cons_of_neg (by simp [stop])]
  have measure : cfg.measure (x :: w ++ '\n' :: r) = .blank := by
    rw [Config.measure, drop]
    rfl
  rw [List.cons_append] at take drop measure ⊢
  rw [Scan.reading_start hx flag, Scan.readIndentation]
  simp only [measure, take, drop, List.isEmpty_cons, Bool.false_eq_true, if_false]

theorem strides_blank : ∀ {w : List Char}, cfg.Blank w →
    ∃ m, m.OfBlank s w r ∧ strides cfg ⟨s, w ++ '\n' :: r⟩ = m :: strides cfg ⟨s, r⟩
  | [], _ => ⟨_, ⟨rfl, rfl, List.cons_ne_nil _ _, rfl⟩, strides_lineFeed flag r⟩
  | x :: w, h => by
    have hn : x ≠ '\n' := fun e => h.not_mem_newline (e ▸ List.mem_cons_self)
    by_cases hr : x = '\r' ∧ cfg.crlf = true
    · obtain ⟨rfl, crlf⟩ := hr
      cases w with
      | nil => exact ⟨_, ⟨rfl, rfl, List.cons_ne_nil _ _, rfl⟩, strides_returnLineFeed flag r crlf⟩
      | cons y w =>
        -- the return is alone, and the rest of the line is blank by itself
        obtain ⟨m, blank, all⟩ := strides_blank h.tail
        have alone : (y :: w ++ '\n' :: r).head? ≠ some '\n' := by
          rintro ⟨⟩
          exact h.tail.not_mem_newline List.mem_cons_self
        have reads := (Scan.reading_return (s := s) crlf).trans (Scan.readReturn_of_ne alone)
        refine ⟨_, blank.prepend (v := ['\r']), ?_⟩
        rw [List.cons_append, strides_of_passed reads (by simp), all]
        rfl
    · have hx : Plain cfg x := ⟨hn, hr, (h x List.mem_cons_self).2⟩
      refine ⟨⟨_, x :: w, ['\n'], ⟨s, r⟩⟩, ⟨rfl, rfl, List.cons_ne_nil _ _, rfl⟩, ?_⟩
      rw [strides_of_passed (reading_blank flag r hx h) (by simp), strides_lineFeed flag]
      simp [Piece.prepend]

end

/-! ## A blank line put in -/

namespace Piece.OfBlank

variable {s : State} {r : List Char} {m : Piece Sign} (h : m.OfBlank s w r)
include h

theorem byteLength_whole : byteLength m.whole = byteLength w + 1 := by
  rw [h.whole, byteLength_newline]

theorem before_lt : byteLength m.before < byteLength w + 1 := by
  have pos := mt byteLength_eq_zero_iff.mp h.text
  rw [← h.byteLength_whole, Piece.whole, byteLength_append]
  omega

theorem ofStride (small : s.stack.size ≤ Snapshot.maxLevels) (o i : Nat) : Output.ofStride o i m =
    { tokens := [⟨.scanned .lineBreak, o + byteLength m.before, o + (byteLength w + 1)⟩]
      checkpoints := [⟨o + (byteLength w + 1), i + 1, Snapshot.encode s⟩] } := by
  have ends : m.endsLine = true := endsLine_iff.mpr ⟨h.sign, h.text⟩
  simp only [Output.ofStride, h.sign, ends, h.next, small, h.byteLength_whole]
  rfl

end Piece.OfBlank

theorem Output.CutAt.diagnostics_moved {n k : Nat} {x y : Output} (h : CutAt n k x y) (d : Nat) :
    (x.append y).diagnostics.map (fun e => if e.offset < n then e else e.shift (· + d)) =
      x.diagnostics ++ y.diagnostics.map (·.shift (· + d)) := by
  have before : x.diagnostics.map (fun e => if e.offset < n then e else e.shift (· + d)) = x.diagnostics := by
    conv => rhs; rw [← List.map_id x.diagnostics]
    exact List.map_congr_left fun e he => if_pos (h.diagnostics.1 e he)
  rw [append, List.map_append, before]
  congr 1
  exact List.map_congr_left fun e he => if_neg (Nat.not_lt.mpr (h.diagnostics.2 e he))

/-- The output of a text with a blank line put in at a line start. -/
theorem tokenize_with_blank {source : List Char} {ms : List (Piece Sign)} {b : Spot}
    (h : Leads cfg (.start cfg source) ms b) (at' : AtLine ms) (blank : cfg.Blank w) :
    ∃ m, m.OfBlank b.state w b.rest ∧ tokenize (textOf ms ++ w ++ '\n' :: b.rest) cfg =
      ((Output.upTo cfg ms).append (Output.ofStride (byteLength (textOf ms)) (tokenCount ms) m)).append
        ((Output.onward cfg ms b).moveBy (byteLength w + 1) 1) := by
  obtain ⟨ns, leads, text, count, same⟩ := h.swap at' (w ++ '\n' :: b.rest)
  obtain ⟨m, line, all⟩ := strides_blank (h.flags at').1 b.rest blank
  refine ⟨m, line, ?_⟩
  have before : Output.upTo cfg ns = Output.upTo cfg ms := by rw [Output.upTo, same, Output.upTo]
  rw [← List.append_assoc] at leads
  rw [tokenize_of_leads leads, before, Output.onward, text, count, all, Output.ofStrides,
    line.byteLength_whole, tokenCount_token line.sign, Output.ofStrides_move, Output.append_assoc]
  rfl

end

/-- With a blank line put in at a checkpoint, a text has the same tokens, but for one line break that
ends with the line, and the same diagnostics and checkpoints, but for one behind the line with the
same snapshot. What stood behind the checkpoint has moved by the length of the line. -/
theorem tokenize_blankLine {source : List Char} {cfg : Config} {p : Checkpoint}
    (hp : p ∈ (tokenize source cfg).checkpoints) {w : List Char} (blank : cfg.Blank w) :
    let o := tokenize source cfg
    let d := byteLength w + 1
    ∃ u r, source = u ++ r ∧ byteLength u = p.offset ∧
      let n := tokenize (u ++ w ++ '\n' :: r) cfg
      (∃ start, p.offset ≤ start ∧ start < p.offset + d ∧
        n.tokens = o.tokens.take p.index ++
          ⟨.scanned .lineBreak, start, p.offset + d⟩ :: (o.tokens.drop p.index).map (·.shift (· + d))) ∧
      n.diagnostics = o.diagnostics.map
        (fun e => if e.offset < p.offset then e else e.shift (· + d)) ∧
      n.checkpoints = o.checkpoints.filter (·.offset ≤ p.offset) ++
        ⟨p.offset + d, p.index + 1, p.snapshot⟩ ::
          (o.checkpoints.filter (p.offset < ·.offset)).map
            (fun q => ⟨q.offset + d, q.index + 1, q.snapshot⟩) := by
  intro o d
  obtain ⟨ms, b, leads, at', small, rfl⟩ := leads_of_checkpoint hp
  obtain ⟨m, line, new⟩ := tokenize_with_blank leads at' blank
  have cut := cutAt_of_leads leads
  have old : o = (Output.upTo cfg ms).append (Output.onward cfg ms b) := tokenize_of_leads leads
  have added := line.ofStride small (byteLength (textOf ms)) (tokenCount ms)
  refine ⟨textOf ms, b.rest, leads.split, rfl, ⟨byteLength (textOf ms) + byteLength m.before, ?_, ?_, ?_⟩, ?_, ?_⟩
  · exact Nat.le_add_right _ _
  · exact Nat.add_lt_add_left line.before_lt _
  · rw [new, old, added]
    simp only [Output.append, List.take_left' cut.tokens, List.drop_left' cut.tokens, List.append_assoc]
    rfl
  · rw [new, old, added, cut.diagnostics_moved]
    simp only [Output.append, List.append_nil]
    rfl
  · rw [new, old, added, cut.checkpoints_before, cut.checkpoints_behind]
    simp only [Output.append, List.append_assoc]
    rfl

theorem tokenize_blankLine_of_returns :
    ⟨2, 2, Snapshot.encode (.initial 2)⟩ ∈ (tokenize "a\n\tb\n\t\tc".toList { maxDepth := 2 }).checkpoints ∧
      ({ maxDepth := 2 } : Config).Blank "\r\t \r".toList ∧
      ∃ u r, "a\n\tb\n\t\tc".toList = u ++ r ∧ byteLength u = 2 ∧
        (tokenize (u ++ "\r\t \r".toList ++ '\n' :: r) { maxDepth := 2 }).diagnostics.map (·.offset) = [10] := by
  have checkpoint : ⟨2, 2, Snapshot.encode (.initial 2)⟩ ∈
      (tokenize "a\n\tb\n\t\tc".toList { maxDepth := 2 }).checkpoints := by decide +kernel
  have blank : ({ maxDepth := 2 } : Config).Blank "\r\t \r".toList := by decide
  obtain ⟨u, r, split, length, -, diagnostics, -⟩ := tokenize_blankLine checkpoint blank
  refine ⟨checkpoint, blank, u, r, split, length, ?_⟩
  rw [diagnostics]
  decide +kernel

end Offside
