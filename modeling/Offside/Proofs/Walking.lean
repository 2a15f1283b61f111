import Offside.Lex.Walk
import Offside.Proofs.LineFlags

/-!
# A walk finds the structure that a lexer finds

Where no comments are read, the scanner has nothing inside a line, so it makes no difference how
much content is passed over at a time (`kindsAhead_inside`). A walk stops at places where a lexer
does not, and of a refusal it sees only that the indentation is behind it. But from any place on it
finds the kinds that strides from there find (`walk_eq`), and from the start of a text the structure
that lexing gives (`walkText_eq`).
-/

namespace Offside

/-! ## The kinds ahead of a spot -/

def Piece.kind? (m : Piece Sign) : Option Kind :=
  match m.sign with
  | .token t => t.kind?
  | .refused _ | .done => none

namespace Output

theorem structureKinds_append (x y : Output) :
    (x.append y).structureKinds = x.structureKinds ++ y.structureKinds := by
  simp [structureKinds, append, structureOf]

theorem structureKinds_ofStride (o i : Nat) (m : Piece Sign) :
    (ofStride o i m).structureKinds = m.kind?.toList := by
  unfold ofStride Piece.kind?
  cases m.sign with
  | token t => cases t <;> rfl
  | refused e => rfl
  | done => rfl

theorem structureKinds_ofStrides : ∀ (o i : Nat) (ms : List (Piece Sign)),
    (ofStrides o i ms).structureKinds = ms.filterMap Piece.kind?
  | _, _, [] => rfl
  | o, i, m :: ms => by
    rw [ofStrides, structureKinds_append, structureKinds_ofStride, structureKinds_ofStrides,
      List.filterMap_cons]
    cases m.kind? <;> rfl

end Output

def kindsAhead (cfg : Config) (a : Spot) : List Kind := (strides cfg a).filterMap Piece.kind?

section
variable {cfg : Config} {a b : Spot} {v w : List Char}

theorem kindsAhead_of_produced {k : Kind}
    (h : Scan.reading cfg cfg.kinds a = ⟨.produced k, v, w, b⟩) :
    kindsAhead cfg a = k :: kindsAhead cfg b := by
  rw [kindsAhead, strides_of_produced h]
  rfl

theorem kindsAhead_of_refused {e : Stack.Error}
    (h : Scan.reading cfg cfg.kinds a = ⟨.refused e, v, w, b⟩) :
    kindsAhead cfg a = kindsAhead cfg b := by
  rw [kindsAhead, strides_of_refused h]
  rfl

theorem kindsAhead_of_passed (h : Scan.reading cfg cfg.kinds a = ⟨.nothing, v, w, b⟩)
    (hw : v ++ w ≠ []) : kindsAhead cfg a = kindsAhead cfg b := by
  rw [kindsAhead, strides_of_passed h hw, kindsAhead]
  cases strides cfg b <;> rfl

theorem kindsAhead_of_content {t : Content.Taken}
    (h : Scan.reading cfg cfg.kinds a = ⟨.nothing, [], [], b⟩) (ht : Content.lexOne a.rest = some t) :
    kindsAhead cfg a = kindsAhead cfg ⟨b.state, t.rest⟩ := by
  rw [kindsAhead, strides_of_content h ht]
  rfl

end

/-! ## Inside a line -/

section
variable {cfg : Config} (noMark : cfg.commentMark = none)
include noMark

/-- The rest of a line that is under way adds nothing in front of its terminator. -/
theorem kindsAhead_inside {s : State} (flag : s.atLineStart = false) : ∀ t : List Char,
    kindsAhead cfg ⟨s, t⟩ = kindsAhead cfg ⟨s, t.dropWhile (· != '\n')⟩
  | [] => rfl
  | x :: r => by
    by_cases hn : x = '\n'
    · subst hn
      rfl
    by_cases hr : x = '\r' ∧ cfg.crlf = true
    · obtain ⟨rfl, crlf⟩ := hr
      have drop : ('\r' :: r).dropWhile (· != '\n') = r.dropWhile (· != '\n') :=
        dropWhile_line (w := ['\r']) r (by simp)
      rw [drop]
      by_cases hl : r.head? = some '\n'
      · obtain ⟨r, rfl⟩ := List.head?_eq_some_iff.mp hl
        rw [kindsAhead_of_produced (Scan.reading_return crlf)]
        exact (kindsAhead_of_produced Scan.reading_newline).symm
      · rw [kindsAhead_of_passed ((Scan.reading_return crlf).trans (Scan.readReturn_of_ne hl)) (by simp)]
        exact kindsAhead_inside flag r
    · have hx : Plain cfg x := ⟨hn, hr, not_isCommentMark noMark x⟩
      obtain ⟨t, ht⟩ := Content.exists_lexOne x r
      have inLine : '\n' ∉ t.lexeme := Content.not_mem_lexeme ht (by simpa using hn)
      have shorter := Content.lexOne_length_lt ht
      rw [kindsAhead_of_content (Scan.reading_inside hx flag) ht, Content.lexOne_append ht,
        dropWhile_line t.rest inLine]
      exact kindsAhead_inside flag t.rest
termination_by t => t.length
decreasing_by
  · simp
  · exact shorter

/-- A content token may as well be taken one character at a time. -/
theorem kindsAhead_of_stays {s s' : State} {x : Char} {r : List Char}
    (h : Scan.reading cfg cfg.kinds ⟨s, x :: r⟩ = ⟨.nothing, [], [], ⟨s', x :: r⟩⟩) :
    kindsAhead cfg ⟨s, x :: r⟩ = kindsAhead cfg ⟨s', r⟩ := by
  have turn := Scan.turn cfg ⟨s, x :: r⟩
  rw [h] at turn
  have flag : s'.atLineStart = false := (turn.flag_of_stays rfl rfl).resolve_right (List.cons_ne_nil x r)
  have hn : x ≠ '\n' := (turn.plain_of_stays rfl rfl x rfl).newline
  obtain ⟨t, ht⟩ := Content.exists_lexOne x r
  have inLine : '\n' ∉ t.lexeme := Content.not_mem_lexeme ht (by simpa using hn)
  calc kindsAhead cfg ⟨s, x :: r⟩
    _ = kindsAhead cfg ⟨s', t.rest⟩ := kindsAhead_of_content h ht
    _ = kindsAhead cfg ⟨s', t.rest.dropWhile (· != '\n')⟩ := kindsAhead_inside noMark flag t.rest
    _ = kindsAhead cfg ⟨s', (x :: r).dropWhile (· != '\n')⟩ := by
      rw [Content.lexOne_append ht, dropWhile_line t.rest inLine]
    _ = kindsAhead cfg ⟨s', r.dropWhile (· != '\n')⟩ := by
      rw [← List.singleton_append, dropWhile_line r (by simpa using Ne.symm hn)]
    _ = kindsAhead cfg ⟨s', r⟩ := (kindsAhead_inside noMark flag r).symm

end

/-! ## Walks -/

section
variable {cfg : Config} {s t : State} {c d : Cursor}

theorem reading_of_scan_some {k : Kind} (h : scan cfg cfg.kinds s c.begin = (some k, t, d)) :
    ∃ v w, Scan.reading cfg cfg.kinds ⟨s, c.rest⟩ = ⟨.produced k, v, w, ⟨t, d.close.rest⟩⟩ := by
  have agrees := Scan.agrees_tryScan cfg cfg.kinds s c
  generalize Scan.reading cfg cfg.kinds ⟨s, c.rest⟩ = p at agrees ⊢
  unfold scan at h
  generalize tryScan cfg cfg.kinds s c.begin = out at h agrees
  obtain ⟨verdict, t', d'⟩ := out
  obtain ⟨x, v, w, ⟨u, r⟩⟩ := p
  cases verdict with
  | nothing | refused e => cases h
  | produced k' =>
    cases h
    obtain ⟨rfl, rfl, -, stop⟩ := agrees
    exact ⟨v, w, by rw [Cursor.rest, Cursor.here_close, stop]⟩

theorem reading_of_scan_none (h : scan cfg cfg.kinds s c.begin = (none, t, d)) :
    ∃ x v w, Scan.reading cfg cfg.kinds ⟨s, c.rest⟩ = ⟨x, v, w, ⟨t, d.rest⟩⟩ ∧
      (∀ k, x ≠ .produced k) ∧ d.position = c.position + byteLength (v ++ w) := by
  have agrees := Scan.agrees_tryScan cfg cfg.kinds s c
  generalize Scan.reading cfg cfg.kinds ⟨s, c.rest⟩ = p at agrees ⊢
  unfold scan at h
  generalize tryScan cfg cfg.kinds s c.begin = out at h agrees
  obtain ⟨verdict, t', d'⟩ := out
  obtain ⟨x, v, w, ⟨u, r⟩⟩ := p
  cases verdict with
  | produced k => cases h
  | nothing | refused e =>
    cases h
    obtain ⟨rfl, rfl, here⟩ := agrees
    refine ⟨_, v, w, by rw [Cursor.rest, here], ?_, congrArg Point.offset here⟩
    intro k e
    cases e

/-- A step that gives no kind and reads nothing has nothing, since a refusal takes indentation. -/
theorem reading_of_scan_stays (h : scan cfg cfg.kinds s c.begin = (none, t, d))
    (stays : d.position = c.position) :
    d.rest = c.rest ∧ Scan.reading cfg cfg.kinds ⟨s, c.rest⟩ = ⟨.nothing, [], [], ⟨t, c.rest⟩⟩ := by
  obtain ⟨x, v, w, reads, quiet, position⟩ := reading_of_scan_none h
  have none : v ++ w = [] := byteLength_eq_zero_iff.mp (by omega)
  obtain ⟨rfl, rfl⟩ := List.append_eq_nil_iff.mp none
  have split := Scan.reading_split cfg cfg.kinds ⟨s, c.rest⟩
  rw [reads] at split
  have rest : d.rest = c.rest := split.symm
  rw [rest] at reads
  cases x with
  | produced k => exact absurd rfl (quiet k)
  | refused e => exact absurd (by rw [reads]) (Scan.text_of_refused (congrArg Piece.sign reads))
  | nothing => exact ⟨rest, reads⟩

theorem walk_eq (noMark : cfg.commentMark = none) (s : State) (c : Cursor) :
    walk cfg s c = kindsAhead cfg ⟨s, c.rest⟩ := by
  fun_induction walk cfg s c with
  | case1 s c k t d h ih =>
    obtain ⟨v, w, reads⟩ := reading_of_scan_some h
    rw [ih, kindsAhead_of_produced reads]
  | case2 s c t d h moved ih =>
    obtain ⟨x, v, w, reads, quiet, position⟩ := reading_of_scan_none h
    have ne : v ++ w ≠ [] := by
      intro none
      rw [none] at position
      exact moved position
    rw [ih]
    cases x with
    | produced k => exact absurd rfl (quiet k)
    | refused e => exact (kindsAhead_of_refused reads).symm
    | nothing => exact (kindsAhead_of_passed reads ne).symm
  | case3 s c t d h stays ended =>
    obtain ⟨rest, reads⟩ := reading_of_scan_stays h (Decidable.not_not.mp stays)
    rw [kindsAhead, strides_of_end reads (rest.symm.trans ended)]
    rfl
  | case4 s c t d h stays more ih =>
    obtain ⟨rest, reads⟩ := reading_of_scan_stays h (Decidable.not_not.mp stays)
    obtain ⟨x, r, front⟩ := List.exists_cons_of_ne_nil more
    have behind : (d.advance false).rest = r := congrArg Point.rest (Scan.here_advance_cons front)
    rw [ih, behind]
    rw [← rest, front] at reads ⊢
    exact (kindsAhead_of_stays noMark reads).symm

end

/-- Walking over a text gives the structure that lexing it gives. -/
theorem walkText_eq (source : List Char) {cfg : Config} (h : cfg.commentMark = none) :
    walkText cfg source = (tokenize source cfg).structureKinds := by
  have start : (Cursor.ofSource source).rest = source :=
    congrArg Point.rest (Lexer.at_ofSource source cfg).here
  rw [walkText, walk_eq h, start, tokenize_eq, Output.structureKinds_append,
    Output.structureKinds_ofStrides]
  rfl

theorem walkText_past_refusal :
    ({ maxDepth := 2 } : Config).commentMark = none ∧
      walkText { maxDepth := 2 } "a\n\tb<=c\n\t\td e\nf".toList =
        [.lineBreak, .indentOpen, .lineBreak, .lineBreak, .indentClose, .lineBreak] :=
  ⟨rfl, (walkText_eq _ rfl).trans (by decide +kernel)⟩

end Offside
