import Offside.Proofs.Coverage
import Offside.Token.Line

/-!
# Content, line by line

`tokenizeLine` takes one line at a time, and a lexer asks the scanner in front of every token and
hands over all of the text ahead. Where no comments are read and returns belong to line terminators
(`ReturnsPaired`), both find the same content. `bodiesAhead` is the content that the lines from a
spot on have. The scanner takes none of it (`Turn.bodies`), a stride takes what it has for a content
token (`Advance.bodies`), and so nothing is left of it at the end (`contents_tokenize`).
-/

namespace Offside

/-! ## Lines with their terminators -/

namespace Layout

def Line.whole (l : Line) : List Char := if l.terminated then l.text ++ ['\n'] else l.text

def Line.prepend (w : List Char) (l : Line) : Line := { l with text := w ++ l.text }

@[simp] theorem Line.whole_prepend (w : List Char) (l : Line) : (l.prepend w).whole = w ++ l.whole := by
  unfold whole prepend
  split <;> simp

theorem lines_nil : lines [] = [⟨[], false⟩] := lines_of_end rfl

theorem lines_newline (r : List Char) : lines ('\n' :: r) = ⟨[], true⟩ :: lines r := lines_of_newline rfl

theorem lines_append {w t : List Char} {l : Line} {ls : List Line} (h : '\n' ∉ w) (ht : lines t = l :: ls) :
    lines (w ++ t) = l.prepend w :: ls := by
  have drop := dropWhile_line t h
  cases hd : t.dropWhile (· != '\n') with
  | nil =>
    rw [lines_of_end hd] at ht
    cases ht
    exact lines_of_end (drop.trans hd)
  | cons c r =>
    rw [lines_of_newline hd] at ht
    cases ht
    rw [lines_of_newline (drop.trans hd), List.takeWhile_append_of_pos (ne_newline h)]
    rfl

theorem flatMap_whole_lines (t : List Char) : (lines t).flatMap Line.whole = t := by
  fun_induction lines t with
  | case1 t h => simp [Line.whole]
  | case2 t c r h ih =>
    have parts := List.takeWhile_append_dropWhile (p := (· != '\n')) (l := t)
    have feed : c = '\n' := by
      have := List.head?_dropWhile_not (· != '\n') t
      simpa [h] using this
    rw [h, feed] at parts
    rw [List.flatMap_cons, ih]
    simp [Line.whole, parts]

theorem exists_lines (t : List Char) : ∃ l ls, lines t = l :: ls ∧ (ls = [] ∨ '\n' ∈ l.whole) := by
  cases h : t.dropWhile (· != '\n') with
  | nil => exact ⟨_, _, lines_of_end h, .inl rfl⟩
  | cons c r => exact ⟨_, _, lines_of_newline h, .inr (by simp [Line.whole])⟩

end Layout

/-! ## Content of lines -/

def Config.isMargin (cfg : Config) (c : Char) : Bool := c == '\t' || (c == ' ' && cfg.ignoreSpaces)

def contentsOfLine (cfg : Config) (o : Nat) (l : Layout.Line) : List Lexeme :=
  tokenizeLine (o + byteLength (l.whole.takeWhile cfg.isMargin)) (l.whole.dropWhile cfg.isMargin)

def contentsOfLines (cfg : Config) : Nat → List Layout.Line → List Lexeme
  | _, [] => []
  | o, l :: ls => contentsOfLine cfg o l ++ contentsOfLines cfg (o + byteLength l.whole) ls

def ReturnsPaired (cfg : Config) (t : List Char) : Prop :=
  ∀ u r, t = u ++ '\r' :: r → cfg.crlf = true ∧ r.head? = some '\n'

theorem ReturnsPaired.of_append {cfg : Config} {w t : List Char} (h : ReturnsPaired cfg (w ++ t)) :
    ReturnsPaired cfg t := by
  intro u r e
  exact h (w ++ u) r (by rw [e, List.append_assoc])

theorem returnsPaired_cons_iff {cfg : Config} {c : Char} {t : List Char} : ReturnsPaired cfg (c :: t) ↔
    (c = '\r' → cfg.crlf = true ∧ t.head? = some '\n') ∧ ReturnsPaired cfg t := by
  constructor
  · intro h
    exact ⟨fun ret => h [] t (by rw [ret]; rfl), h.of_append (w := [c])⟩
  · rintro ⟨here, behind⟩ (_ | ⟨d, u⟩) r e
    · obtain ⟨rfl, rfl⟩ := List.cons.inj e
      exact here rfl
    · exact behind u r (List.cons.inj e).2

instance ReturnsPaired.decidable (cfg : Config) : ∀ t : List Char, Decidable (ReturnsPaired cfg t)
  | [] => .isTrue fun u r e => by simp at e
  | _ :: t =>
    have := decidable cfg t
    decidable_of_iff' _ returnsPaired_cons_iff

def Token.isContent : Token → Bool
  | .scanned _ => false
  | .content _ => true

def Output.contents (o : Output) : List Lexeme := o.tokens.filter (·.token.isContent)

theorem Output.contents_append (x y : Output) : (x.append y).contents = x.contents ++ y.contents :=
  List.filter_append ..

theorem Output.contents_ofStride (o i : Nat) (m : Piece Sign) :
    (ofStride o i m).contents = (m.lexemes o).filter (·.token.isContent) :=
  congrArg (List.filter _) (tokens_ofStride o i m)

/-- The content of the lines from a spot on. A line that is under way has no indentation ahead. -/
def bodiesAhead (cfg : Config) (o : Nat) (a : Spot) : List Lexeme :=
  match Layout.lines a.rest with
  | [] => []
  | l :: ls =>
    (if a.state.atLineStart then contentsOfLine cfg o l else tokenizeLine o l.whole) ++
      contentsOfLines cfg (o + byteLength l.whole) ls

section
variable {cfg : Config} {o : Nat}

theorem tokenizeLine_of_terminator {w : List Char} (h : startsTerminator w = true) : tokenizeLine o w = [] := by
  rw [tokenizeLine, if_pos h]

theorem bodiesAhead_end (s : State) : bodiesAhead cfg o ⟨s, []⟩ = [] := by
  have none (o : Nat) : tokenizeLine o [] = [] := by rw [tokenizeLine]; rfl
  simp [bodiesAhead, Layout.lines_nil, contentsOfLine, contentsOfLines, Layout.Line.whole, none]

theorem bodiesAhead_start {s : State} (flag : s.atLineStart = true) (t : List Char) :
    bodiesAhead cfg o ⟨s, t⟩ = contentsOfLines cfg o (Layout.lines t) := by
  obtain ⟨l, ls, hl, -⟩ := Layout.exists_lines t
  simp only [bodiesAhead, hl, flag, if_true, contentsOfLines]

theorem bodiesAhead_newline (s : State) (r : List Char) :
    bodiesAhead cfg o ⟨s, '\n' :: r⟩ = contentsOfLines cfg (o + 1) (Layout.lines r) := by
  have margin : cfg.isMargin '\n' = false := by simp [Config.isMargin]
  have none (o : Nat) : tokenizeLine o ['\n'] = [] := tokenizeLine_of_terminator rfl
  have size : '\n'.utf8Size = 1 := rfl
  simp [bodiesAhead, Layout.lines_newline, contentsOfLine, Layout.Line.whole, margin, none, size]

theorem bodiesAhead_return (s : State) (r : List Char) :
    bodiesAhead cfg o ⟨s, '\r' :: '\n' :: r⟩ = contentsOfLines cfg (o + 2) (Layout.lines r) := by
  have margin : cfg.isMargin '\r' = false := by simp [Config.isMargin]
  have none (o : Nat) : tokenizeLine o ['\r', '\n'] = [] := tokenizeLine_of_terminator rfl
  have first : Layout.lines ('\r' :: '\n' :: r) = ⟨['\r'], true⟩ :: Layout.lines r :=
    Layout.lines_append (w := ['\r']) (by simp) (Layout.lines_newline r)
  have size : '\r'.utf8Size = 1 ∧ '\n'.utf8Size = 1 := ⟨rfl, rfl⟩
  simp [bodiesAhead, first, contentsOfLine, Layout.Line.whole, margin, none, size]

theorem bodiesAhead_margin {s s' : State} (flag : s.atLineStart = true) (flag' : s'.atLineStart = false)
    (t : List Char) : bodiesAhead cfg o ⟨s, t⟩ =
      bodiesAhead cfg (o + byteLength (t.takeWhile cfg.isMargin)) ⟨s', t.dropWhile cfg.isMargin⟩ := by
  have inside := List.all_eq_true.mp (List.all_takeWhile (p := cfg.isMargin) (l := t))
  have stops := List.head?_dropWhile_not cfg.isMargin t
  have inLine : '\n' ∉ t.takeWhile cfg.isMargin := Scan.not_mem_takeWhile (by simp [Config.isMargin]) t
  have parts := List.takeWhile_append_dropWhile (p := cfg.isMargin) (l := t)
  generalize t.takeWhile cfg.isMargin = w at inside inLine parts ⊢
  generalize t.dropWhile cfg.isMargin = u at stops parts ⊢
  subst parts
  obtain ⟨l, ls, hl, -⟩ := Layout.exists_lines u
  have first : Layout.lines (w ++ u) = l.prepend w :: ls := Layout.lines_append inLine hl
  have front := Layout.flatMap_whole_lines u
  rw [hl, List.flatMap_cons] at front
  have none : l.whole.takeWhile cfg.isMargin = [] ∧ l.whole.dropWhile cfg.isMargin = l.whole := by
    cases hw : l.whole with
    | nil => exact ⟨rfl, rfl⟩
    | cons c v =>
      have hc : cfg.isMargin c = false := by simpa [← front, hw] using stops
      simp [hc]
  simp only [bodiesAhead, first, hl, flag, flag', if_true, Bool.false_eq_true, if_false, contentsOfLine,
    Layout.Line.whole_prepend, List.takeWhile_append_of_pos inside, List.dropWhile_append_of_pos inside,
    none, List.append_nil, byteLength_append, Nat.add_assoc]

/-! ## What the scanner and a stride take of it -/

/-- The indentation is the margin, but on a blank line with a return before its line feed. -/
theorem indent_eq_margin : ∀ {t : List Char}, ReturnsPaired cfg t →
    (t.takeWhile cfg.isIndent = t.takeWhile cfg.isMargin ∧
        t.dropWhile cfg.isIndent = t.dropWhile cfg.isMargin) ∨
      ∃ r, t.takeWhile cfg.isIndent = t.takeWhile cfg.isMargin ++ ['\r'] ∧
        t.dropWhile cfg.isIndent = '\n' :: r ∧ t.dropWhile cfg.isMargin = '\r' :: '\n' :: r
  | [], _ => .inl ⟨rfl, rfl⟩
  | c :: t, h => by
    by_cases margin : cfg.isMargin c = true
    · have indent : cfg.isIndent c = true := by
        simp only [Config.isMargin, Bool.or_eq_true] at margin
        simp only [Config.isIndent, Config.isFiller, Bool.or_eq_true]
        exact margin.imp_right .inl
      have behind := indent_eq_margin (h.of_append (w := [c]))
      simpa [margin, indent] using behind
    · by_cases indent : cfg.isIndent c = true
      · have ret : c = '\r' ∧ cfg.crlf = true := by
          simp only [Config.isIndent, Config.isFiller, Bool.or_eq_true, ← or_assoc] at indent
          simp only [Config.isMargin, Bool.or_eq_true] at margin
          simpa using indent.resolve_left margin
        obtain ⟨rfl, crlf⟩ := ret
        obtain ⟨r, rfl⟩ := List.head?_eq_some_iff.mp (h [] t rfl).2
        right
        simp [margin, indent, Scan.isIndent_newline]
      · simp [margin, indent]

section
variable {s s' : State} {t : List Char} (paired : ReturnsPaired cfg t) (flag : s.atLineStart = true)
include paired flag

theorem bodiesAhead_line {depth : Nat} (hm : cfg.measure t = .line depth) (flag' : s'.atLineStart = false) :
    bodiesAhead cfg o ⟨s, t⟩ =
      bodiesAhead cfg (o + byteLength (t.takeWhile cfg.isIndent)) ⟨s', t.dropWhile cfg.isIndent⟩ := by
  rcases indent_eq_margin paired with ⟨take, drop⟩ | ⟨r, -, drop, -⟩
  · rw [take, drop]
    exact bodiesAhead_margin flag flag' t
  · rw [Config.measure, drop] at hm
    cases hm

theorem bodiesAhead_blank (noMark : cfg.commentMark = none) (hm : cfg.measure t = .blank) (s' : State) :
    bodiesAhead cfg o ⟨s, t⟩ =
      bodiesAhead cfg (o + byteLength (t.takeWhile cfg.isIndent)) ⟨s', t.dropWhile cfg.isIndent⟩ := by
  have inLine : ({ s with atLineStart := false } : State).atLineStart = false := rfl
  rw [bodiesAhead_margin flag inLine t]
  rcases indent_eq_margin paired with ⟨take, drop⟩ | ⟨r, take, drop, margin⟩
  · rw [take, drop]
    rw [Config.measure, drop] at hm
    cases hu : t.dropWhile cfg.isMargin with
    | nil => rw [bodiesAhead_end, bodiesAhead_end]
    | cons c r =>
      rw [hu] at hm
      obtain rfl : c = '\n' := by
        simpa [Config.isCommentMark, noMark] using hm
      rw [bodiesAhead_newline, bodiesAhead_newline]
  · rw [take, drop, margin, bodiesAhead_return, bodiesAhead_newline, byteLength_append]
    rfl

end

section
variable {a b : Spot} (noMark : cfg.commentMark = none)
include noMark

theorem Scan.Turn.bodies {p : Piece Verdict} (t : Turn cfg a p) (paired : ReturnsPaired cfg a.rest) :
    bodiesAhead cfg o a = bodiesAhead cfg (o + byteLength p.whole) p.next := by
  cases t with
  | finalBreak | lastClose | theEnd => rw [bodiesAhead_end, bodiesAhead_end]
  | lineFeed =>
    rw [bodiesAhead_newline, bodiesAhead_start rfl]
    rfl
  | returnLineFeed =>
    rw [bodiesAhead_return, bodiesAhead_start rfl]
    rfl
  | loneReturn _ hl => exact absurd (paired [] _ rfl).2 hl
  | @comment s x _ _ _ hc => exact absurd hc (not_isCommentMark noMark x)
  | inside => rfl
  | blank hx flag hm =>
    rw [Piece.whole_mk, List.append_nil]
    exact bodiesAhead_blank paired flag noMark hm _
  | settled hx flag hm =>
    rw [Piece.whole_mk, List.append_nil]
    exact bodiesAhead_line paired flag hm rfl
  | closesOne hx flag => rw [bodiesAhead_start flag, bodiesAhead_start rfl]; rfl
  | tooDeep hx flag hm | level hx flag hm =>
    simp only [Piece.whole_mk, List.append_nil, List.nil_append]
    exact bodiesAhead_line paired flag hm rfl

end

theorem tokenizeLine_of_lexOne {w : List Char} {t : Content.Taken} (h : startsTerminator w = false)
    (ht : Content.lexOne w = some t) : tokenizeLine o w =
      ⟨.content t.kind, o, o + byteLength t.lexeme⟩ :: tokenizeLine (o + byteLength t.lexeme) t.rest := by
  rw [tokenizeLine, if_neg (by rw [h]; nofun)]
  split
  · next none => rw [none] at ht; cases ht
  · next u some =>
    rw [some] at ht
    cases ht
    rfl

theorem Content.lexOne_front {r v z : List Char} {t : Taken} (ht : lexOne r = some t)
    (split : t.rest = v ++ z) (ends : z = [] ∨ '\n' ∈ v) :
    lexOne (t.lexeme ++ v) = some { t with rest := v } := by
  have cut : lexOne ((t.lexeme ++ v) ++ z) =
      (lexOne (t.lexeme ++ v)).map fun u => { u with rest := u.rest ++ z } := by
    rcases ends with rfl | mem
    · rw [List.append_nil]
      cases lexOne (t.lexeme ++ v) <;> simp
    · exact lexOne_append_of_mem z (List.mem_append_right _ mem)
  rw [List.append_assoc, ← split, ← lexOne_append ht, ht] at cut
  obtain ⟨u, hu, e⟩ := Option.map_eq_some_iff.mp cut.symm
  have rest : u.rest = v := by
    rw [← e] at split
    exact List.append_cancel_right split
  rw [hu, ← e, ← rest]

theorem bodiesAhead_content {s : State} {r : List Char} {t : Content.Taken} (flag : s.atLineStart = false)
    (paired : ReturnsPaired cfg r) (plain : ∀ x ∈ r.head?, Plain cfg x) (ht : Content.lexOne r = some t) :
    bodiesAhead cfg o ⟨s, r⟩ = ⟨.content t.kind, o, o + byteLength t.lexeme⟩ ::
      bodiesAhead cfg (o + byteLength t.lexeme) ⟨s, t.rest⟩ := by
  have split := Content.lexOne_append ht
  obtain ⟨x, w, hw⟩ := List.exists_cons_of_ne_nil (Content.lexeme_ne_nil ht)
  have hx : Plain cfg x := plain x (by rw [split, hw]; rfl)
  have inLine : '\n' ∉ t.lexeme := Content.not_mem_lexeme ht (by
    rw [split, hw]
    simpa using hx.newline)
  obtain ⟨l, ls, hl, ends⟩ := Layout.exists_lines t.rest
  have first : Layout.lines r = l.prepend t.lexeme :: ls := by rw [split, Layout.lines_append inLine hl]
  have front := Layout.flatMap_whole_lines t.rest
  rw [hl, List.flatMap_cons] at front
  -- a token does not start with a return, since that would belong to a terminator
  have notReturn : x ≠ '\r' := by
    rintro rfl
    exact hx.ret ⟨rfl, (paired [] (w ++ t.rest) (by rw [split, hw]; rfl)).1⟩
  have body : startsTerminator (t.lexeme ++ l.whole) = false := by
    rw [hw, List.cons_append, startsTerminator]
    · simpa using hx.newline
    · exact fun _ ret => notReturn (List.cons.inj ret).1
  have lex := Content.lexOne_front ht front.symm (ends.imp_left fun none => by rw [none]; rfl)
  simp only [bodiesAhead, first, hl, flag, Bool.false_eq_true, if_false, Layout.Line.whole_prepend,
    tokenizeLine_of_lexOne body lex, byteLength_append, Nat.add_assoc]
  rfl

end

section
variable {cfg : Config} {a b : Spot} (noMark : cfg.commentMark = none)
include noMark

theorem Advance.bodies {o : Nat} {m : Piece Sign} (t : Advance cfg a m) (paired : ReturnsPaired cfg a.rest) :
    bodiesAhead cfg o a =
      (m.lexemes o).filter (·.token.isContent) ++ bodiesAhead cfg (o + byteLength m.whole) m.next := by
  induction t generalizing o with
  | scanned t | refused t => exact t.bodies noMark paired
  | @content s s' r t stays flag ht =>
    rw [stays.bodies noMark paired]
    exact bodiesAhead_content flag paired (stays.plain_of_stays rfl rfl) ht
  | done => exact (bodiesAhead_end _).trans (bodiesAhead_end _).symm
  | @passed a b w m t hw _ ih =>
    -- the token stands behind what this reading passes over
    rw [t.bodies noMark paired, lexemes_prepend, Piece.whole_prepend, byteLength_append, ← Nat.add_assoc,
      Piece.whole_mk, List.append_nil]
    rw [t.split] at paired
    exact ih paired.of_append

theorem Leads.bodies {ms : List (Piece Sign)} (h : Leads cfg a ms b) (paired : ReturnsPaired cfg a.rest)
    (o i : Nat) : bodiesAhead cfg o a =
      (Output.ofStrides o i ms).contents ++ bodiesAhead cfg (o + byteLength (textOf ms)) b := by
  induction h generalizing o i with
  | refl => rfl
  | @step a b ms _ _ ih =>
    have first := (advance cfg a).bodies noMark (o := o) paired
    rw [stride_split cfg a] at paired
    rw [first, ih paired.of_append _ (i + tokenCount [stride cfg a]), Output.ofStrides, Output.contents_append,
      Output.contents_ofStride, textOf_cons, byteLength_append, List.append_assoc, Nat.add_assoc]

theorem bodiesAhead_of_done {o : Nat} (done : (stride cfg a).sign = .done) (paired : ReturnsPaired cfg a.rest) :
    bodiesAhead cfg o a = [] := by
  rw [(advance cfg a).bodies noMark paired, Piece.lexemes, done]
  have ended := (stride_of_done a done).1
  generalize (stride cfg a).next = b at ended
  obtain ⟨s, r⟩ := b
  obtain rfl : r = [] := ended
  exact bodiesAhead_end s

end

/-- The content of a text, with the offsets, is that of the bodies of its lines. -/
theorem contents_tokenize {source : List Char} {cfg : Config} (noMark : cfg.commentMark = none)
    (paired : ReturnsPaired cfg source) :
    (tokenize source cfg).contents = contentsOfLines cfg 0 (Layout.lines source) := by
  obtain ⟨b, leads, done⟩ := leads_to_end cfg (.start cfg source)
  have behind : ReturnsPaired cfg b.rest := by
    have split : source = _ := leads.split
    rw [split] at paired
    exact paired.of_append
  have all := leads.bodies noMark paired 0 0
  rw [bodiesAhead_of_done noMark done behind, List.append_nil, Spot.start, bodiesAhead_start rfl] at all
  rw [all, Output.contents, tokens_tokenize]
  rfl

theorem contents_tokenize_past_refusal :
    ({ maxDepth := 2, ignoreSpaces := false } : Config).commentMark = none ∧
      ReturnsPaired { maxDepth := 2, ignoreSpaces := false } "a\r\n\t b\n\t\t\tc\n\t\r\n1.e".toList ∧
      (tokenize "a\r\n\t b\n\t\t\tc\n\t\r\n1.e".toList { maxDepth := 2, ignoreSpaces := false }).contents =
        [⟨.content .identifier, 0, 1⟩, ⟨.content .whitespace, 4, 5⟩, ⟨.content .identifier, 5, 6⟩,
          ⟨.content .identifier, 10, 11⟩, ⟨.content .number, 15, 17⟩, ⟨.content .identifier, 17, 18⟩] :=
  ⟨rfl, by decide, (contents_tokenize rfl (by decide)).trans (by decide +kernel)⟩

end Offside
