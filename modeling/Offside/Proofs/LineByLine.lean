import Offside.Layout
import Offside.Proofs.Strides

/-!
# The scanner follows the layout rule

`ahead` is the layout of what a lexer gives from a spot on. Inside a line it is the line's
terminator and what is behind it (`ahead_inside`), and at the start of a line what the line does to
the open levels comes before that (`ahead_line`). So line by line the layout of a text is the one
that `Layout.ofText` reads off its lines (`layout_tokenize`).
-/

namespace Offside

/-! ## The layout of an output -/

/-- Neither a comment nor a line break without a terminator. -/
def Lexeme.isLayout (l : Lexeme) : Bool :=
  l.token != .scanned .comment && !(l.token.isLineBreak && l.span.isEmpty)

def Output.layout (o : Output) : Layout :=
  ⟨structureOf (o.tokens.filter Lexeme.isLayout), o.diagnostics.map (·.error)⟩

namespace Layout

theorem append_assoc (a b c : Layout) : (a.append b).append c = a.append (b.append c) := by
  simp [append]

end Layout

def Piece.layout (m : Piece Sign) : Layout :=
  match m.sign with
  | .token (.scanned .comment) => .nothing
  | .token (.scanned .lineBreak) => if m.text.isEmpty then .nothing else { kinds := [.lineBreak] }
  | .token (.scanned k) => { kinds := [k] }
  | .token (.content _) => .nothing
  | .refused e => { errors := [e] }
  | .done => .nothing

def layoutOf : List (Piece Sign) → Layout
  | [] => .nothing
  | m :: ms => m.layout.append (layoutOf ms)

namespace Output

theorem layout_append (a b : Output) : (a.append b).layout = a.layout.append b.layout := by
  simp [layout, append, Layout.append, structureOf]

theorem layout_ofStride (o i : Nat) (m : Piece Sign) : (ofStride o i m).layout = m.layout := by
  have empty := isEmpty_span o m
  unfold ofStride Piece.layout
  cases m.sign with
  | token t =>
    cases t with
    | scanned k =>
      cases k with
      | lineBreak => cases he : m.text.isEmpty <;> simp [layout, structureOf, Lexeme.isLayout,
          Token.isLineBreak, empty, he, Token.kind?, Layout.nothing]
      | indentOpen | indentClose | sameLevel | comment => rfl
    | content c => rfl
  | refused e => rfl
  | done => rfl

theorem layout_ofStrides : ∀ (o i : Nat) (ms : List (Piece Sign)), (ofStrides o i ms).layout = layoutOf ms
  | _, _, [] => rfl
  | o, i, m :: ms => by
    rw [ofStrides, layout_append, layout_ofStride, layout_ofStrides, layoutOf]

end Output

/-! ## What is ahead of a spot -/

def ahead (cfg : Config) (a : Spot) : Layout := layoutOf (strides cfg a)

section
variable {cfg : Config} {a b : Spot} {v w : List Char}

theorem ahead_of_produced {k : Kind} (h : Scan.reading cfg cfg.kinds a = ⟨.produced k, v, w, b⟩) :
    ahead cfg a = (Piece.mk (.token (.scanned k)) v w b : Piece Sign).layout.append (ahead cfg b) := by
  rw [ahead, strides_of_produced h]
  rfl

theorem ahead_of_refused {e : Stack.Error} (h : Scan.reading cfg cfg.kinds a = ⟨.refused e, v, w, b⟩) :
    ahead cfg a = Layout.append { errors := [e] } (ahead cfg b) := by
  rw [ahead, strides_of_refused h]
  rfl

theorem ahead_of_passed (h : Scan.reading cfg cfg.kinds a = ⟨.nothing, v, w, b⟩) (hw : v ++ w ≠ []) :
    ahead cfg a = ahead cfg b := by
  rw [ahead, strides_of_passed h hw, ahead]
  cases strides cfg b <;> rfl

theorem ahead_of_content {t : Content.Taken} (h : Scan.reading cfg cfg.kinds a = ⟨.nothing, [], [], b⟩)
    (ht : Content.lexOne a.rest = some t) : ahead cfg a = ahead cfg ⟨b.state, t.rest⟩ := by
  rw [ahead, strides_of_content h ht]
  rfl

theorem ahead_of_end (h : Scan.reading cfg cfg.kinds a = ⟨.nothing, [], [], b⟩) (hr : a.rest = []) :
    ahead cfg a = .nothing := by
  rw [ahead, strides_of_end h hr]
  rfl

end

/-! ## What the scanner reads, by the next character -/

structure Plain (cfg : Config) (x : Char) : Prop where
  newline : x ≠ '\n'
  ret : ¬ (x = '\r' ∧ cfg.crlf = true)
  comment : ¬ cfg.isCommentMark x = true

theorem not_isCommentMark {cfg : Config} (h : cfg.commentMark = none) (x : Char) :
    ¬ cfg.isCommentMark x = true := by
  simp [Config.isCommentMark, h]

namespace Scan

section
variable {cfg : Config} {s : State} {x : Char} {r : List Char}

theorem reading_newline : reading cfg cfg.kinds ⟨s, '\n' :: r⟩ =
    ⟨.produced .lineBreak, [], ['\n'], ⟨{ s with atLineStart := true }, r⟩⟩ := by
  simp [reading]

theorem reading_return (h : cfg.crlf = true) :
    reading cfg cfg.kinds ⟨s, '\r' :: r⟩ = readReturn s r := by
  simp [reading, h]

theorem reading_comment (hn : x ≠ '\n') (hr : ¬ (x = '\r' ∧ cfg.crlf = true))
    (hc : cfg.isCommentMark x = true) : reading cfg cfg.kinds ⟨s, x :: r⟩ =
      ⟨.produced .comment, [], (x :: r).takeWhile (fun y => !cfg.endsComment y),
        ⟨{ s with atLineStart := false }, (x :: r).dropWhile (fun y => !cfg.endsComment y)⟩⟩ := by
  have mark : cfg.commentMark.isSome = true := by
    rw [Config.isCommentMark, beq_iff_eq] at hc; rw [hc]; rfl
  simp only [reading, Config.contains_lineBreak, Config.contains_comment, mark, and_true, hn, hr, hc,
    if_true, if_false]

theorem reading_inside (h : Plain cfg x) (hs : s.atLineStart = false) :
    reading cfg cfg.kinds ⟨s, x :: r⟩ = ⟨.nothing, [], [], ⟨s, x :: r⟩⟩ := by
  simp only [reading, Config.contains_lineBreak, and_true, h.newline, h.ret, h.comment, false_and,
    if_false, hs, Bool.false_eq_true]

theorem reading_start (h : Plain cfg x) (hs : s.atLineStart = true) :
    reading cfg cfg.kinds ⟨s, x :: r⟩ = readIndentation cfg cfg.kinds ⟨s, x :: r⟩ := by
  simp only [reading, Config.contains_lineBreak, and_true, h.newline, h.ret, h.comment, false_and,
    Bool.false_eq_true, if_false, hs, Config.takesIndentation_kinds, if_true]

end

end Scan

/-! ## The end of the text -/

section
variable {cfg : Config}

theorem ahead_levels {s : State} (h : Scan.finalBreakDue cfg s = false) :
    ahead cfg ⟨s, []⟩ = Layout.closing s.stack.opened := by
  obtain ⟨⟨opened, capacity⟩, start, done⟩ := s
  induction opened with
  | nil =>
    have hr : Scan.reading cfg cfg.kinds ⟨⟨⟨[], capacity⟩, start, done⟩, []⟩ =
        ⟨.nothing, [], [], ⟨⟨⟨[], capacity⟩, start, done⟩, []⟩⟩ := by
      simp [Scan.reading, Scan.readEnd, h, Stack.isBase]
    rw [ahead_of_end hr rfl]
    rfl
  | cons d opened ih =>
    have hr : Scan.reading cfg cfg.kinds ⟨⟨⟨d :: opened, capacity⟩, start, done⟩, []⟩ =
        ⟨.produced .indentClose, [], [], ⟨⟨⟨opened, capacity⟩, start, done⟩, []⟩⟩ := by
      simp [Scan.reading, Scan.readEnd, h, Stack.isBase, Stack.pop]
    rw [ahead_of_produced hr, ih h]
    rfl

theorem ahead_end (s : State) : ahead cfg ⟨s, []⟩ = Layout.closing s.stack.opened := by
  cases due : Scan.finalBreakDue cfg s with
  | false => exact ahead_levels due
  | true =>
    have hr : Scan.reading cfg cfg.kinds ⟨s, []⟩ = ⟨.produced .lineBreak, [], [],
        ⟨{ s with finalBreakDone := true, atLineStart := true }, []⟩⟩ := by
      simp [Scan.reading, Scan.readEnd, due]
    rw [ahead_of_produced hr, ahead_levels (by simp [Scan.finalBreakDue])]
    rfl

/-! ## Inside a line -/

def behindLine (cfg : Config) (k : Stack) (done : Bool) (t : List Char) : Layout :=
  match t.dropWhile (· != '\n') with
  | [] => Layout.closing k.opened
  | _ :: r => Layout.append { kinds := [.lineBreak] } (ahead cfg ⟨⟨k, true, done⟩, r⟩)

theorem behindLine_append {k : Stack} {done : Bool} {w : List Char} (t : List Char) (h : '\n' ∉ w) :
    behindLine cfg k done (w ++ t) = behindLine cfg k done t := by
  unfold behindLine
  rw [List.dropWhile_append_of_pos]
  intro x hx
  simp only [bne_iff_ne, ne_eq]
  rintro rfl
  exact h hx

theorem behindLine_newline {k : Stack} {done : Bool} {r : List Char} : behindLine cfg k done ('\n' :: r) =
    Layout.append { kinds := [.lineBreak] } (ahead cfg ⟨⟨k, true, done⟩, r⟩) := by
  simp [behindLine]

theorem endsComment_eq_false {x : Char} (hn : x ≠ '\n') (hr : ¬ (x = '\r' ∧ cfg.crlf = true)) :
    cfg.endsComment x = false := by
  cases h : cfg.crlf <;> simp_all [Config.endsComment]

theorem behindLine_dropWhile {k : Stack} {done : Bool} {q : Char → Bool} (h : q '\n' = false)
    (t : List Char) : behindLine cfg k done (t.dropWhile q) = behindLine cfg k done t := by
  conv => rhs; rw [← List.takeWhile_append_dropWhile (p := q) (l := t)]
  exact (behindLine_append _ (Scan.not_mem_takeWhile h t)).symm

theorem behindLine_comment (k : Stack) (done : Bool) (t : List Char) :
    behindLine cfg k done (t.dropWhile fun y => !cfg.endsComment y) = behindLine cfg k done t :=
  behindLine_dropWhile (by simp [Scan.endsComment_newline]) t

theorem behindLine_indent (k : Stack) (done : Bool) (t : List Char) :
    behindLine cfg k done (t.dropWhile cfg.isIndent) = behindLine cfg k done t :=
  behindLine_dropWhile (Scan.isIndent_newline cfg) t

theorem ahead_inside (k : Stack) (done : Bool) : ∀ t : List Char,
    ahead cfg ⟨⟨k, false, done⟩, t⟩ = behindLine cfg k done t
  | [] => ahead_end _
  | x :: r => by
    by_cases hn : x = '\n'
    · subst hn
      rw [behindLine_newline, ahead_of_produced Scan.reading_newline]
      rfl
    by_cases hr : x = '\r' ∧ cfg.crlf = true
    · obtain ⟨rfl, crlf⟩ := hr
      have passed : behindLine cfg k done ('\r' :: r) = behindLine cfg k done r :=
        behindLine_append (w := ['\r']) r (by simp)
      rw [passed]
      by_cases hl : r.head? = some '\n'
      · obtain ⟨r, rfl⟩ := List.head?_eq_some_iff.mp hl
        rw [behindLine_newline, ahead_of_produced (Scan.reading_return crlf)]
        rfl
      · rw [ahead_of_passed ((Scan.reading_return crlf).trans (Scan.readReturn_of_ne hl)) (by simp)]
        exact ahead_inside k done r
    by_cases hc : cfg.isCommentMark x = true
    · rw [ahead_of_produced (Scan.reading_comment hn hr hc)]
      exact (ahead_inside k done _).trans (behindLine_comment k done (x :: r))
    · have hx : Plain cfg x := ⟨hn, hr, hc⟩
      obtain ⟨t, ht⟩ := Content.exists_lexOne x r
      have inLine : '\n' ∉ t.lexeme := Content.not_mem_lexeme ht (by simpa using hn)
      have shorter := Content.lexOne_length_lt ht
      rw [ahead_of_content (Scan.reading_inside hx rfl) ht, Content.lexOne_append ht,
        behindLine_append t.rest inLine]
      exact ahead_inside k done t.rest
termination_by t => t.length
decreasing_by
  · simp
  · rw [List.dropWhile_cons_of_pos (by rw [endsComment_eq_false hn hr]; rfl)]
    exact Nat.lt_succ_of_le (List.dropWhile_sublist _).length_le
  · exact shorter

/-! ## The start of a line -/

theorem ahead_newline (k : Stack) (start done : Bool) (r : List Char) :
    ahead cfg ⟨⟨k, start, done⟩, '\n' :: r⟩ = behindLine cfg k done ('\n' :: r) := by
  rw [behindLine_newline, ahead_of_produced Scan.reading_newline]
  rfl

theorem ahead_comment (k : Stack) (start done : Bool) {x : Char} {r : List Char} (hn : x ≠ '\n')
    (hr : ¬ (x = '\r' ∧ cfg.crlf = true)) (hc : cfg.isCommentMark x = true) :
    ahead cfg ⟨⟨k, start, done⟩, x :: r⟩ = behindLine cfg k done (x :: r) := by
  rw [ahead_of_produced (Scan.reading_comment hn hr hc)]
  exact (ahead_inside k done _).trans (behindLine_comment k done (x :: r))

section
variable {x : Char} {r : List Char}

theorem ahead_of_indent {s : State} {k : Stack} {done : Bool} (hn : x ≠ '\n')
    (h : Scan.reading cfg cfg.kinds ⟨s, x :: r⟩ = ⟨.nothing, (x :: r).takeWhile cfg.isIndent, [],
      ⟨⟨k, false, done⟩, (x :: r).dropWhile cfg.isIndent⟩⟩) :
    ahead cfg ⟨s, x :: r⟩ = behindLine cfg k done (x :: r) := by
  by_cases hw : (x :: r).takeWhile cfg.isIndent = []
  · rw [hw] at h
    obtain ⟨t, ht⟩ := Content.exists_lexOne x r
    rw [ahead_of_content h ht, ahead_inside, Content.lexOne_append ht,
      behindLine_append t.rest (Content.not_mem_lexeme ht (by simpa using hn))]
  · rw [ahead_of_passed h (by rw [List.append_nil]; exact hw), ahead_inside, behindLine_indent]

variable {depth : Nat}

theorem reading_line (h : Plain cfg x) (hm : cfg.measure (x :: r) = .line depth) (k : Stack) (done : Bool) :
    Scan.reading cfg cfg.kinds ⟨⟨k, true, done⟩, x :: r⟩ =
      Scan.readLine cfg cfg.kinds ⟨k, false, done⟩ depth ((x :: r).takeWhile cfg.isIndent)
        ((x :: r).dropWhile cfg.isIndent) := by
  rw [Scan.reading_start h rfl, Scan.readIndentation]
  simp only [hm]

theorem ahead_behind (k : Stack) (done : Bool) :
    ahead cfg ⟨⟨k, false, done⟩, (x :: r).dropWhile cfg.isIndent⟩ = behindLine cfg k done (x :: r) := by
  rw [ahead_inside, behindLine_indent]

/-- A line ends the levels deeper than itself one by one, and is measured again for each. -/
theorem ahead_less (h : Plain cfg x) (hm : cfg.measure (x :: r) = .line depth) (done : Bool)
    (capacity : Nat) : ∀ opened : List Nat, depth < opened.headD 0 →
    ahead cfg ⟨⟨⟨opened, capacity⟩, true, done⟩, x :: r⟩ =
      (Layout.closing (opened.takeWhile (depth < ·))).append
        (behindLine cfg ⟨opened.dropWhile (depth < ·), capacity⟩ done (x :: r))
  | [], hd => absurd hd (Nat.not_lt_zero depth)
  | d :: opened, hd => by
    have hd : depth < d := hd
    have first : (d :: opened).takeWhile (depth < ·) = d :: opened.takeWhile (depth < ·) ∧
        (d :: opened).dropWhile (depth < ·) = opened.dropWhile (depth < ·) := by simp [hd]
    by_cases more : depth < opened.headD 0
    · have hr : Scan.reading cfg cfg.kinds ⟨⟨⟨d :: opened, capacity⟩, true, done⟩, x :: r⟩ =
          ⟨.produced .indentClose, [], [], ⟨⟨⟨opened, capacity⟩, true, done⟩, x :: r⟩⟩ := by
        rw [reading_line h hm, Scan.readLine]
        simp [Stack.top, Stack.pop, hd, Nat.lt_asymm hd]
        simpa using more
      rw [ahead_of_produced hr, ahead_less h hm done capacity opened more, ← Layout.append_assoc,
        first.1, first.2]
      rfl
    · have hr : Scan.reading cfg cfg.kinds ⟨⟨⟨d :: opened, capacity⟩, true, done⟩, x :: r⟩ =
          ⟨.produced .indentClose, (x :: r).takeWhile cfg.isIndent, [],
            ⟨⟨⟨opened, capacity⟩, false, done⟩, (x :: r).dropWhile cfg.isIndent⟩⟩ := by
        rw [reading_line h hm, Scan.readLine]
        simp [Stack.top, Stack.pop, hd, Nat.lt_asymm hd]
        simpa using more
      have last : opened.takeWhile (depth < ·) = [] ∧ opened.dropWhile (depth < ·) = opened := by
        cases opened with
        | nil => exact ⟨rfl, rfl⟩
        | cons e opened =>
          have stop : ¬ decide (depth < e) = true := by simpa using more
          exact ⟨List.takeWhile_cons_of_neg stop, List.dropWhile_cons_of_neg stop⟩
      rw [ahead_of_produced hr, ahead_behind, first.1, first.2, last.1, last.2]
      rfl

theorem ahead_depth (h : Plain cfg x) (hm : cfg.measure (x :: r) = .line depth) (k : Stack) (done : Bool) :
    ahead cfg ⟨⟨k, true, done⟩, x :: r⟩ = (Layout.atDepth cfg depth k).1.append
      (behindLine cfg (Layout.atDepth cfg depth k).2 done (x :: r)) := by
  unfold Layout.atDepth
  by_cases deeper : k.top < depth
  · rw [if_pos deeper]
    cases hp : k.push depth with
    | ok k' =>
      have hr : Scan.reading cfg cfg.kinds ⟨⟨k, true, done⟩, x :: r⟩ = ⟨.produced .indentOpen,
          (x :: r).takeWhile cfg.isIndent, [], ⟨⟨k', false, done⟩, (x :: r).dropWhile cfg.isIndent⟩⟩ := by
        rw [reading_line h hm, Scan.readLine]; simp [deeper, hp]
      rw [ahead_of_produced hr, ahead_behind]
      rfl
    | error e =>
      have hr : Scan.reading cfg cfg.kinds ⟨⟨k, true, done⟩, x :: r⟩ = ⟨.refused e, [],
          (x :: r).takeWhile cfg.isIndent, ⟨⟨k, false, done⟩, (x :: r).dropWhile cfg.isIndent⟩⟩ := by
        rw [reading_line h hm, Scan.readLine]; simp [deeper, hp]
      rw [ahead_of_refused hr, ahead_behind]
  rw [if_neg deeper]
  by_cases less : depth < k.top
  · rw [if_pos less]
    exact ahead_less h hm done k.capacity k.opened less
  rw [if_neg less]
  cases same : cfg.sameLevel with
  | true =>
    have hr : Scan.reading cfg cfg.kinds ⟨⟨k, true, done⟩, x :: r⟩ = ⟨.produced .sameLevel,
        (x :: r).takeWhile cfg.isIndent, [], ⟨⟨k, false, done⟩, (x :: r).dropWhile cfg.isIndent⟩⟩ := by
      rw [reading_line h hm, Scan.readLine]; simp [deeper, less, same]
    rw [ahead_of_produced hr, ahead_behind]
    rfl
  | false =>
    have hr : Scan.reading cfg cfg.kinds ⟨⟨k, true, done⟩, x :: r⟩ = ⟨.nothing,
        (x :: r).takeWhile cfg.isIndent, [], ⟨⟨k, false, done⟩, (x :: r).dropWhile cfg.isIndent⟩⟩ := by
      rw [reading_line h hm, Scan.readLine]; simp [deeper, less, same]
    exact ahead_of_indent h.newline hr

theorem ahead_blank (h : Plain cfg x) (hm : cfg.measure (x :: r) = .blank) (k : Stack) (done : Bool) :
    ahead cfg ⟨⟨k, true, done⟩, x :: r⟩ = behindLine cfg k done (x :: r) := by
  have start := Scan.reading_start (s := ⟨k, true, done⟩) (r := r) h rfl
  simp only [Scan.readIndentation, hm] at start
  cases hu : (x :: r).dropWhile cfg.isIndent with
  | nil =>
    refine ahead_of_indent h.newline (start.trans ?_)
    rw [hu]; rfl
  | cons c u =>
    have stops : ¬ cfg.isIndent c = true := by
      have := List.head?_dropWhile_not cfg.isIndent (x :: r)
      rw [hu] at this
      simpa using this
    have blank : c = '\n' ∨ cfg.isCommentMark c = true := by
      simp only [Config.measure, hu] at hm
      split at hm
      · next hc => simpa using hc
      · cases hm
    have indented : (x :: r).takeWhile cfg.isIndent ≠ [] := by
      intro none
      have parts := List.takeWhile_append_dropWhile (p := cfg.isIndent) (l := x :: r)
      rw [none, hu] at parts
      obtain ⟨rfl, -⟩ := List.cons.inj parts
      exact blank.elim h.newline h.comment
    rw [hu] at start
    rw [ahead_of_passed start (by rw [List.append_nil]; exact indented), ← behindLine_indent, hu]
    by_cases hc : c = '\n'
    · subst hc; exact ahead_newline k true done u
    · refine ahead_comment k true done hc (fun hr => stops ?_) (blank.resolve_left hc)
      simp [Config.isIndent, Config.isFiller, hr.1, hr.2]

end

end

/-! ## Lines of the layout rule -/

namespace Layout

def firstLine (t : List Char) : Line := ⟨t.takeWhile (· != '\n'), !(t.dropWhile (· != '\n')).isEmpty⟩

def atDepth? (cfg : Config) (s : Stack) : Option Nat → Layout × Stack
  | none => (nothing, s)
  | some depth => atDepth cfg depth s

section
variable {cfg : Config} {x : Char} {r : List Char}

theorem depth?_nil : (firstLine []).depth? cfg = none := by
  simp [firstLine, Line.depth?, startsComment, Config.depthOf]

theorem depth?_newline : (firstLine ('\n' :: r)).depth? cfg = none := by
  simp [firstLine, Line.depth?, startsComment]

theorem depth?_return (h : cfg.crlf = true) : (firstLine ('\r' :: r)).depth? cfg = (firstLine r).depth? cfg := by
  have indent : cfg.isIndent '\r' = true := by simp [Config.isIndent, Config.isFiller, h]
  simp [firstLine, Line.depth?, h, indent, Config.depthOf]

theorem body_eq {w : List Char} (hr : ¬ (x = '\r' ∧ cfg.crlf = true)) :
    (if cfg.crlf then (x :: w).dropWhile (· == '\r') else x :: w) = x :: w := by
  split
  · next crlf =>
    have hx : ¬ (x == '\r') = true := fun e => hr ⟨beq_iff_eq.mp e, crlf⟩
    exact List.dropWhile_cons_of_neg hx
  · rfl

theorem firstLine_cons (hn : x ≠ '\n') :
    firstLine (x :: r) = ⟨x :: r.takeWhile (· != '\n'), !(r.dropWhile (· != '\n')).isEmpty⟩ := by
  simp [firstLine, hn]

theorem depth?_comment (hn : x ≠ '\n') (hr : ¬ (x = '\r' ∧ cfg.crlf = true))
    (hc : cfg.isCommentMark x = true) : (firstLine (x :: r)).depth? cfg = none := by
  rw [firstLine_cons hn, Line.depth?]
  simp only [body_eq hr]
  simp [startsComment, hc]

theorem takeWhile_takeWhile {p q : Char → Bool} (h : ∀ c, p c = true → q c = true) (t : List Char) :
    (t.takeWhile q).takeWhile p = t.takeWhile p := by
  induction t with
  | nil => rfl
  | cons c t ih =>
    by_cases hp : p c = true
    · simp [hp, h c hp, ih]
    · by_cases hq : q c = true
      · simp [hp, hq]
      · simp [hp, hq]

theorem dropWhile_takeWhile {p q : Char → Bool} (h : ∀ c, p c = true → q c = true) (t : List Char) :
    (t.takeWhile q).dropWhile p = (t.dropWhile p).takeWhile q := by
  induction t with
  | nil => rfl
  | cons c t ih =>
    by_cases hp : p c = true
    · simp [hp, h c hp, ih]
    · by_cases hq : q c = true
      · simp [hp, hq]
      · simp [hp, hq]

theorem dropWhile_dropWhile {p q : Char → Bool} (h : ∀ c, p c = true → q c = true) (t : List Char) :
    (t.dropWhile p).dropWhile q = t.dropWhile q := by
  induction t with
  | nil => rfl
  | cons c t ih =>
    by_cases hp : p c = true
    · simp [hp, h c hp, ih]
    · simp [hp]

theorem isIndent_inLine (c : Char) (h : cfg.isIndent c = true) : (c != '\n') = true := by
  rw [bne_iff_ne]
  rintro rfl
  rw [Scan.isIndent_newline] at h
  cases h

theorem depth?_plain (h : Plain cfg x) : (firstLine (x :: r)).depth? cfg =
    match cfg.measure (x :: r) with
    | .blank => none
    | .line depth => some depth := by
  have rest : (firstLine (x :: r)).text.dropWhile cfg.isIndent =
      ((x :: r).dropWhile cfg.isIndent).takeWhile (· != '\n') := dropWhile_takeWhile isIndent_inLine _
  have depth : cfg.depthOf (firstLine (x :: r)).text = cfg.depthOf (x :: r) := by
    rw [Config.depthOf, Config.depthOf, firstLine, takeWhile_takeWhile isIndent_inLine]
  have more : (firstLine (x :: r)).terminated =
      !(((x :: r).dropWhile cfg.isIndent).dropWhile (· != '\n')).isEmpty := by
    rw [dropWhile_dropWhile isIndent_inLine]; rfl
  have body : startsComment cfg (if cfg.crlf then (firstLine (x :: r)).text.dropWhile (· == '\r')
      else (firstLine (x :: r)).text) = false := by
    rw [firstLine_cons h.newline]
    simp only [body_eq h.ret]
    simpa [startsComment] using h.comment
  rw [Line.depth?]
  simp only [body, rest, depth, more, Config.measure]
  cases (x :: r).dropWhile cfg.isIndent with
  | nil =>
    by_cases hd : cfg.depthOf (x :: r) = 0
    · simp [startsComment, hd]
    · simp [startsComment, hd, Nat.pos_of_ne_zero hd]
  | cons c u =>
    by_cases hc : c = '\n'
    · simp [startsComment, hc]
    · cases hm : cfg.isCommentMark c with
      | true => simp [startsComment, hc, hm]
      | false => simp [startsComment, hc, hm]

end

end Layout

/-- What a line does to the open levels comes first, and what is behind the line after it. -/
theorem ahead_line (cfg : Config) (k : Stack) (done : Bool) : ∀ t : List Char,
    ahead cfg ⟨⟨k, true, done⟩, t⟩ =
      (Layout.atDepth? cfg k ((Layout.firstLine t).depth? cfg)).1.append
        (behindLine cfg (Layout.atDepth? cfg k ((Layout.firstLine t).depth? cfg)).2 done t)
  | [] => by
    rw [Layout.depth?_nil]
    exact ahead_end _
  | x :: r => by
    by_cases hn : x = '\n'
    · subst hn
      rw [Layout.depth?_newline]
      exact ahead_newline k true done r
    by_cases hr : x = '\r' ∧ cfg.crlf = true
    · obtain ⟨rfl, crlf⟩ := hr
      have passed (k : Stack) : behindLine cfg k done ('\r' :: r) = behindLine cfg k done r :=
        behindLine_append (w := ['\r']) r (by simp)
      rw [Layout.depth?_return crlf, passed]
      by_cases hl : r.head? = some '\n'
      · obtain ⟨r, rfl⟩ := List.head?_eq_some_iff.mp hl
        rw [Layout.depth?_newline, ahead_of_produced (Scan.reading_return crlf)]
        exact behindLine_newline.symm
      · rw [ahead_of_passed ((Scan.reading_return crlf).trans (Scan.readReturn_of_ne hl)) (by simp)]
        exact ahead_line cfg k done r
    by_cases hc : cfg.isCommentMark x = true
    · rw [Layout.depth?_comment hn hr hc]
      exact ahead_comment k true done hn hr hc
    have hx : Plain cfg x := ⟨hn, hr, hc⟩
    rw [Layout.depth?_plain hx]
    cases hm : cfg.measure (x :: r) with
    | blank => exact ahead_blank hx hm k done
    | line depth => exact ahead_depth hx hm k done

/-! ## Whole texts -/

namespace Layout

theorem ofLine_eq (cfg : Config) (l : Line) (s : Stack) : ofLine cfg l s =
    ((atDepth? cfg s (l.depth? cfg)).1.append { kinds := if l.terminated then [.lineBreak] else [] },
      (atDepth? cfg s (l.depth? cfg)).2) := by
  unfold ofLine atDepth?
  cases l.depth? cfg <;> rfl

section
variable {t : List Char}

theorem lines_of_end (h : t.dropWhile (· != '\n') = []) : lines t = [⟨t, false⟩] := by
  rw [lines]; grind

theorem lines_of_newline {c : Char} {r : List Char} (h : t.dropWhile (· != '\n') = c :: r) :
    lines t = ⟨t.takeWhile (· != '\n'), true⟩ :: lines r := by
  rw [lines]; grind

end

theorem ofLines_lines (cfg : Config) (s : Stack) (t : List Char) :
    ofLines cfg (lines t) s =
      (atDepth? cfg s ((firstLine t).depth? cfg)).1.append
        (match t.dropWhile (· != '\n') with
        | [] => closing (atDepth? cfg s ((firstLine t).depth? cfg)).2.opened
        | _ :: r => append { kinds := [.lineBreak] }
            (ofLines cfg (lines r) (atDepth? cfg s ((firstLine t).depth? cfg)).2)) := by
  cases h : t.dropWhile (· != '\n') with
  | nil =>
    have all := List.takeWhile_append_dropWhile (p := (· != '\n')) (l := t)
    rw [h, List.append_nil] at all
    have first : firstLine t = ⟨t, false⟩ := by rw [firstLine, h, all]; rfl
    rw [lines_of_end h, first, ofLines, ofLine_eq]
    exact append_assoc _ _ _
  | cons c r =>
    have first : firstLine t = ⟨t.takeWhile (· != '\n'), true⟩ := by rw [firstLine, h]; rfl
    rw [lines_of_newline h, first, ofLines, ofLine_eq]
    exact append_assoc _ _ _

end Layout

theorem ahead_lines (cfg : Config) (k : Stack) (done : Bool) (t : List Char) :
    ahead cfg ⟨⟨k, true, done⟩, t⟩ = Layout.ofLines cfg (Layout.lines t) k := by
  rw [ahead_line, Layout.ofLines_lines, behindLine]
  cases h : t.dropWhile (· != '\n') with
  | nil => rfl
  | cons c r =>
    have shorter : r.length < t.length := by
      have := (List.dropWhile_sublist (l := t) (· != '\n')).length_le
      rw [h, List.length_cons] at this
      exact this
    simp only [ahead_lines cfg _ done r]
termination_by t.length

/-- The structure of a text and the levels that could not be opened, as the lexer gives them, are
what the layout rule reads off the lines of the text. -/
theorem layout_tokenize (source : List Char) (cfg : Config) :
    (tokenize source cfg).layout = Layout.ofText cfg source := by
  rw [tokenize_eq, Output.layout_append, Output.layout_ofStrides]
  exact ahead_lines cfg _ _ source

end Offside
