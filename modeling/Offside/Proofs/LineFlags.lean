import Offside.Proofs.Turns

/-!
# What the flags say of the line

`Tracks` ties a scanner's two flags to the text it has read and the text ahead: while the flag for
the start of a line is set, nothing but stray returns of the line has been read, or nothing but
indentation and the text stops being indentation here; when it is not set, the line holds something
other than stray returns. Every reading keeps this (`Turn.tracks`), so every stride does
(`Advance.tracks`), and so do strides that follow one another (`Leads.tracks`).
-/

namespace Offside

/-- A return that is nothing by itself. -/
def Config.isReturn (cfg : Config) (c : Char) : Bool := c == '\r' && cfg.crlf

theorem Config.isIndent_of_isReturn {cfg : Config} {c : Char} (h : cfg.isReturn c = true) :
    cfg.isIndent c = true := by
  simp only [isReturn, Bool.and_eq_true] at h
  simp [isIndent, isFiller, h.1, h.2]

theorem Config.isReturn_eq_false_iff {cfg : Config} {c : Char} :
    cfg.isReturn c = false ↔ ¬ (c = '\r' ∧ cfg.crlf = true) := by
  rw [Bool.eq_false_iff, isReturn, ne_eq, Bool.and_eq_true, beq_iff_eq]

/-! ## Lines of a text that is cut in two -/

def lastLine (t : List Char) : List Char := (t.reverse.takeWhile (· != '\n')).reverse

/-- The line in which a text is cut that reads `u` before the cut and `t` behind it. -/
def lineAt (u t : List Char) : List Char := lastLine u ++ t.takeWhile (· != '\n')

@[simp] theorem lastLine_nil : lastLine [] = [] := rfl

@[simp] theorem lastLine_newline (u : List Char) : lastLine (u ++ ['\n']) = [] := by
  simp [lastLine]

theorem ne_newline {w : List Char} (h : '\n' ∉ w) : ∀ x ∈ w, (x != '\n') = true := by
  intro x hx
  rw [bne_iff_ne]
  rintro rfl
  exact h hx

theorem dropWhile_line {w : List Char} (t : List Char) (h : '\n' ∉ w) :
    (w ++ t).dropWhile (· != '\n') = t.dropWhile (· != '\n') :=
  List.dropWhile_append_of_pos (ne_newline h)

theorem lastLine_append (u : List Char) {w : List Char} (h : '\n' ∉ w) :
    lastLine (u ++ w) = lastLine u ++ w := by
  have all : ∀ x ∈ w.reverse, (x != '\n') = true := fun x hx => ne_newline h x (List.mem_reverse.mp hx)
  simp [lastLine, List.takeWhile_append_of_pos all]

theorem lineAt_append (u t : List Char) {w : List Char} (h : '\n' ∉ w) :
    lineAt (u ++ w) t = lineAt u (w ++ t) := by
  rw [lineAt, lineAt, lastLine_append u h, List.takeWhile_append_of_pos (ne_newline h), List.append_assoc]

theorem mem_lineAt (u r : List Char) {x : Char} (h : x ≠ '\n') : x ∈ lineAt u (x :: r) := by
  simp [lineAt, h]

/-! ## Flags -/

structure Tracks (cfg : Config) (u : List Char) (a : Spot) : Prop where
  fresh : a.state.atLineStart = true → a.state.finalBreakDone = false →
    (∀ x ∈ lastLine u, cfg.isReturn x = true) ∨
      (∀ x ∈ lastLine u, cfg.isIndent x = true) ∧ ∃ c ∈ a.rest.head?, cfg.isIndent c = false
  underWay : a.state.atLineStart = false → a.state.finalBreakDone = false →
    ∃ x ∈ lineAt u a.rest, cfg.isReturn x = false
  ended : a.state.finalBreakDone = true → a.rest = [] ∧
    (cfg.finalBreak = .whenMissing → ∃ x ∈ lastLine u, cfg.isReturn x = false)

section
variable {cfg : Config} {u : List Char} {a b : Spot}

theorem tracks_start (cfg : Config) (source : List Char) : Tracks cfg [] (.start cfg source) :=
  ⟨fun _ _ => .inl (by simp), nofun, nofun⟩

theorem Tracks.unended (h : Tracks cfg u a) (hr : a.rest ≠ []) : a.state.finalBreakDone = false :=
  Bool.eq_false_iff.mpr fun e => hr (h.ended e).1

theorem Tracks.indent (h : Tracks cfg u a) (hs : a.state.atLineStart = true) (hr : a.rest ≠ []) :
    ∀ x ∈ lastLine u, cfg.isIndent x = true := by
  rcases h.fresh hs (h.unended hr) with returns | ⟨indent, -⟩
  · exact fun x hx => Config.isIndent_of_isReturn (returns x hx)
  · exact indent

theorem Tracks.of_flags {s s' : State} {t : List Char} (h : Tracks cfg u ⟨s, t⟩)
    (start : s'.atLineStart = s.atLineStart) (done : s'.finalBreakDone = s.finalBreakDone) :
    Tracks cfg u ⟨s', t⟩ where
  fresh e f := h.fresh (start ▸ e) (done ▸ f)
  underWay e f := h.underWay (start ▸ e) (done ▸ f)
  ended e := h.ended (done ▸ e)

section
variable {s : State} (done : s.finalBreakDone = false)
include done

theorem tracks_lineStart (r : List Char) : Tracks cfg (u ++ ['\n']) ⟨{ s with atLineStart := true }, r⟩ :=
  ⟨fun _ _ => .inl (by simp), nofun, fun e => by rw [done] at e; cases e⟩

theorem tracks_inLine {x : Char} {r w t : List Char} (flag : s.atLineStart = false)
    (hx : x ∈ lineAt u r) (hr : cfg.isReturn x = false) (split : r = w ++ t) (hw : '\n' ∉ w) :
    Tracks cfg (u ++ w) ⟨s, t⟩ := by
  refine ⟨fun e => ?_, fun _ _ => ⟨x, ?_, hr⟩, fun e => ?_⟩
  · rw [flag] at e; cases e
  · rw [lineAt_append u t hw, ← split]; exact hx
  · rw [done] at e; cases e

theorem tracks_indented {x : Char} {r : List Char} (flag : s.atLineStart = false) (hx : Plain cfg x) :
    Tracks cfg (u ++ (x :: r).takeWhile cfg.isIndent) ⟨s, (x :: r).dropWhile cfg.isIndent⟩ :=
  tracks_inLine done flag (mem_lineAt u r hx.newline) (Config.isReturn_eq_false_iff.mpr hx.ret)
    (List.takeWhile_append_dropWhile).symm (Scan.not_mem_takeWhile (Scan.isIndent_newline cfg) _)

end

theorem Tracks.loneReturn {s : State} {r : List Char} (crlf : cfg.crlf = true)
    (h : Tracks cfg u ⟨s, '\r' :: r⟩) : Tracks cfg (u ++ ['\r']) ⟨s, r⟩ := by
  have ret : cfg.isReturn '\r' = true := by simp [Config.isReturn, crlf]
  have inLine : '\n' ∉ ['\r'] := by simp
  have done := h.unended (by simp)
  refine ⟨fun hs _ => .inl ?_, fun hs _ => ?_, fun e => absurd (h.ended e).1 (by simp)⟩
  · rw [lastLine_append u inLine]
    intro x hx
    rcases List.mem_append.mp hx with hx | hx
    · rcases h.fresh hs done with returns | ⟨-, c, hc, stops⟩
      · exact returns x hx
      · -- what comes next would not be indentation
        obtain rfl : '\r' = c := by simpa using hc
        rw [Config.isIndent_of_isReturn ret] at stops
        cases stops
    · rw [List.mem_singleton.mp hx]; exact ret
  · rw [lineAt_append u r inLine]
    exact h.underWay hs done

theorem Tracks.blank {s : State} {x : Char} {r : List Char} (hx : Plain cfg x) (hs : s.atLineStart = true)
    (h : Tracks cfg u ⟨s, x :: r⟩) : Tracks cfg (u ++ (x :: r).takeWhile cfg.isIndent)
      ⟨if ((x :: r).dropWhile cfg.isIndent).isEmpty then { s with atLineStart := false } else s,
        (x :: r).dropWhile cfg.isIndent⟩ := by
  have done := h.unended (by simp)
  have indent := h.indent hs (by simp)
  split
  · exact tracks_indented (by exact done) rfl hx
  · next more =>
    have ne : (x :: r).dropWhile cfg.isIndent ≠ [] := fun e => more (List.isEmpty_iff.mpr e)
    obtain ⟨c, t, ht⟩ := List.exists_cons_of_ne_nil ne
    have stops := List.head?_dropWhile_not cfg.isIndent (x :: r)
    rw [ht] at stops ⊢
    refine ⟨fun _ _ => .inr ⟨?_, c, rfl, by simpa using stops⟩, fun e => ?_, fun e => ?_⟩
    · rw [lastLine_append u (Scan.not_mem_takeWhile (Scan.isIndent_newline cfg) _)]
      intro y hy
      rcases List.mem_append.mp hy with hy | hy
      · exact indent y hy
      · exact List.all_eq_true.mp List.all_takeWhile y hy
    · rw [hs] at e; cases e
    · rw [done] at e; cases e

theorem Tracks.finalBreak {s : State} (due : Scan.finalBreakDue cfg s = true) (h : Tracks cfg u ⟨s, []⟩) :
    Tracks cfg u ⟨{ s with finalBreakDone := true, atLineStart := true }, []⟩ := by
  refine ⟨nofun, nofun, fun _ => ⟨rfl, fun missing => ?_⟩⟩
  simp only [Scan.finalBreakDue, missing, Bool.and_eq_true, Bool.not_eq_true'] at due
  obtain ⟨x, hx, hr⟩ := h.underWay due.2 due.1
  exact ⟨x, by simpa [lineAt] using hx, hr⟩

theorem Scan.Turn.tracks {p : Piece Verdict} (t : Turn cfg a p) (h : Tracks cfg u a) :
    Tracks cfg (u ++ p.whole) p.next := by
  cases t with
  | finalBreak due => simpa using h.finalBreak due
  | lastClose | theEnd | inside =>
    rw [Piece.whole_mk, List.append_nil, List.append_nil]
    exact h.of_flags rfl rfl
  | closesOne hx hs =>
    rw [Piece.whole_mk, List.append_nil, List.append_nil]
    exact h.of_flags hs.symm rfl
  | lineFeed => exact tracks_lineStart (h.unended (by simp)) _
  | @returnLineFeed s r crlf =>
    have start : Tracks cfg (u ++ ['\r'] ++ ['\n']) _ := tracks_lineStart (h.unended (by simp)) r
    rwa [List.append_assoc] at start
  | loneReturn crlf => exact h.loneReturn crlf
  | @comment s x r hn hr hc =>
    rw [Piece.whole_mk, List.nil_append]
    exact tracks_inLine (by exact h.unended (by simp)) rfl (mem_lineAt u r hn)
      (Config.isReturn_eq_false_iff.mpr hr) (List.takeWhile_append_dropWhile).symm
      (not_mem_takeWhile (by simp [endsComment_newline]) _)
  | blank hx hs => simpa using h.blank hx hs
  | settled hx | level hx =>
    rw [Piece.whole_mk, List.append_nil]
    exact tracks_indented (by exact h.unended (by simp)) rfl hx
  | tooDeep hx => exact tracks_indented (by exact h.unended (by simp)) rfl hx

/-! ## Along strides -/

theorem Tracks.content {s : State} {r : List Char} {t : Content.Taken} (flag : s.atLineStart = false)
    (h : Tracks cfg u ⟨s, r⟩) (hr : r.head? ≠ some '\n') (ht : Content.lexOne r = some t) :
    Tracks cfg (u ++ t.lexeme) ⟨s, t.rest⟩ := by
  have done := h.unended fun e => by
    rw [Content.lexOne_eq_none_iff.mpr e] at ht
    cases ht
  obtain ⟨x, hx, stray⟩ := h.underWay flag done
  exact tracks_inLine done flag hx stray (Content.lexOne_append ht) (Content.not_mem_lexeme ht hr)

theorem Scan.Turn.head_ne_newline {p : Piece Verdict} (t : Turn cfg a p) (hs : p.sign = .nothing) :
    a.rest.head? ≠ some '\n' := by
  cases t with
  | theEnd => simp
  | loneReturn => simp
  | inside hx | blank hx | level hx => simpa using hx.newline
  | finalBreak | lastClose | lineFeed | returnLineFeed | comment | settled | closesOne | tooDeep => cases hs

theorem Advance.tracks {m : Piece Sign} (t : Advance cfg a m) (h : Tracks cfg u a) :
    Tracks cfg (u ++ m.whole) m.next := by
  induction t generalizing u with
  | scanned t | refused t | done t => exact t.tracks h
  | content stays flag ht =>
    have inside := stays.tracks h
    rw [Piece.whole_mk, List.append_nil, List.append_nil] at inside
    exact inside.content flag (stays.head_ne_newline rfl) ht
  | passed t hw _ ih =>
    have behind := ih (t.tracks h)
    rw [Piece.whole_mk, List.append_nil] at behind
    rwa [Piece.whole_prepend, ← List.append_assoc]

theorem Leads.tracks {ms : List (Piece Sign)} (h : Leads cfg a ms b) (ha : Tracks cfg u a) :
    Tracks cfg (u ++ textOf ms) b := by
  induction h generalizing u with
  | refl => simpa using ha
  | @step a b ms _ _ ih =>
    have behind := ih ((advance cfg a).tracks ha)
    rwa [List.append_assoc] at behind

end

end Offside
