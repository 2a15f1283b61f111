import Mathlib.Data.List.TakeWhile
import Offside.Proofs.Checkpoints
import Offside.Proofs.LineBreaks

/-!
# Terminators of two characters

Where a return belongs to the terminator, a line break takes it along with the line feed, but for
lines that the scanner has to measure up to the return: there the return is taken for indentation,
and only the line feed is left (`Config.measuresReturn`). `Faces` says what a spot has in front of it
and what text the line break will have. A reading either gives that line break or leaves a spot with
the same in front of it (`Scan.Turn.faces`), and so does a stride. So the text of each terminator is
known from the line before it (`returnLineFeed_tokenize`).
-/

namespace Offside

/-- Whether the return of a terminator is taken for indentation, behind the line `w`. -/
def Config.measuresReturn (cfg : Config) (w : List Char) : Bool :=
  w.all cfg.isIndent && (w.dropWhile cfg.isReturn).head?.any fun x => !cfg.isCommentMark x

section
variable {cfg : Config} {x : Char} {w r t : List Char}

theorem measuresReturn_of_not_all (h : ¬ w.all cfg.isIndent = true) : cfg.measuresReturn w = false := by
  rw [Config.measuresReturn, Bool.eq_false_iff.mpr h, Bool.false_and]

theorem measuresReturn_return (crlf : cfg.crlf = true) :
    cfg.measuresReturn ('\r' :: w) = cfg.measuresReturn w := by
  have ret : cfg.isReturn '\r' = true := by simp [Config.isReturn, crlf]
  rw [Config.measuresReturn, List.all_cons, Config.isIndent_of_isReturn ret, Bool.true_and,
    List.dropWhile_cons_of_pos ret]
  rfl

theorem measuresReturn_cons (hr : ¬ (x = '\r' ∧ cfg.crlf = true)) :
    cfg.measuresReturn (x :: w) = ((x :: w).all cfg.isIndent && !cfg.isCommentMark x) := by
  have ret : ¬ cfg.isReturn x = true := by
    rw [Config.isReturn_eq_false_iff.mpr hr]
    exact Bool.false_ne_true
  rw [Config.measuresReturn, List.dropWhile_cons_of_neg ret]
  rfl

theorem measuresReturn_of_plain (hx : Plain cfg x) :
    cfg.measuresReturn (x :: w) = (x :: w).all cfg.isIndent := by
  rw [measuresReturn_cons hx.ret, Bool.eq_false_iff.mpr hx.comment, Bool.not_false, Bool.and_true]

theorem measuresReturn_of_mark (hr : ¬ (x = '\r' ∧ cfg.crlf = true)) (hc : cfg.isCommentMark x = true) :
    cfg.measuresReturn (x :: w) = false := by
  rw [measuresReturn_cons hr, hc, Bool.not_true, Bool.and_false]

theorem dropWhile_append_cons {p : Char → Bool} (h : p x = false) :
    (w ++ x :: r).dropWhile p = w.dropWhile p ++ x :: r := by
  rw [List.dropWhile_append]
  split
  · next none => rw [List.isEmpty_iff.mp none, List.dropWhile_cons_of_neg (by simp [h]), List.nil_append]
  · rfl

theorem dropWhile_indent_of_all (crlf : cfg.crlf = true) (h : w.all cfg.isIndent = true) :
    (w ++ '\r' :: '\n' :: r).dropWhile cfg.isIndent = '\n' :: r := by
  have ret : cfg.isIndent '\r' = true := Config.isIndent_of_isReturn (by simp [Config.isReturn, crlf])
  rw [List.dropWhile_append_of_pos (List.all_eq_true.mp h), List.dropWhile_cons_of_pos ret,
    List.dropWhile_cons_of_neg]
  rw [Scan.isIndent_newline]
  exact Bool.false_ne_true

theorem not_all_of_measure {depth : Nat} (crlf : cfg.crlf = true)
    (hm : cfg.measure (w ++ '\r' :: '\n' :: r) = .line depth) : ¬ w.all cfg.isIndent = true := by
  intro all
  rw [Config.measure, dropWhile_indent_of_all crlf all] at hm
  simp at hm

end

/-! ## What a spot has in front of it -/

/-- A spot in front of a return and a line feed, with `r` behind them, and the text of the line break
that there will be. -/
inductive Faces (cfg : Config) (r : List Char) (a : Spot) : List Char → Prop
  | kept {w : List Char} : a.rest = w ++ '\r' :: '\n' :: r → '\n' ∉ w →
      (a.state.atLineStart = true → cfg.measuresReturn w = false) → Faces cfg r a ['\r', '\n']
  | taken {w : List Char} : a.rest = w ++ '\r' :: '\n' :: r → '\n' ∉ w →
      a.state.atLineStart = true → cfg.measuresReturn w = true → Faces cfg r a ['\n']
  | between : a.rest = '\n' :: r → Faces cfg r a ['\n']

section
variable {cfg : Config} {a b : Spot} {r v : List Char}

theorem Faces.start (h : a.state.atLineStart = true) {w : List Char} (inLine : '\n' ∉ w)
    (rest : a.rest = w ++ '\r' :: '\n' :: r) :
    Faces cfg r a (if cfg.measuresReturn w then ['\n'] else ['\r', '\n']) := by
  by_cases takes : cfg.measuresReturn w = true
  · rw [if_pos takes]
    exact .taken rest inLine h takes
  · rw [if_neg takes]
    exact .kept rest inLine fun _ => Bool.eq_false_iff.mpr takes

theorem Faces.mem_newline (h : Faces cfg r a v) : '\n' ∈ a.rest := by
  cases h with
  | kept rest | taken rest | between rest => simp [rest]

def Piece.Breaks {α : Type} (sign : α) (v r : List Char) (p : Piece α) : Prop :=
  p.sign = sign ∧ p.text = v ∧ p.next.rest = r

theorem Scan.Turn.between {p : Piece Verdict} (t : Turn cfg a p) (rest : a.rest = '\n' :: r) :
    p.Breaks (.produced .lineBreak) ['\n'] r := by
  cases t with
  | lineFeed => cases rest; exact ⟨rfl, rfl, rfl⟩
  | finalBreak | lastClose | theEnd | returnLineFeed | loneReturn => cases rest
  | comment hn => cases rest; exact absurd rfl hn
  | inside hx | blank hx | settled hx | closesOne hx | tooDeep hx | level hx =>
    cases rest
    exact absurd rfl hx.newline

section
variable {x : Char} {w t : List Char} (rest : x :: t = w ++ '\r' :: '\n' :: r) (inLine : '\n' ∉ w)
include rest inLine

theorem rest_cases : (w = [] ∧ x = '\r' ∧ t = '\n' :: r) ∨
    ∃ y, w = x :: y ∧ t = y ++ '\r' :: '\n' :: r ∧ '\n' ∉ y := by
  rcases List.cons_eq_append_iff.mp rest with ⟨rfl, e⟩ | ⟨y, rfl, hy⟩
  · cases e
    exact .inl ⟨rfl, rfl, rfl⟩
  · exact .inr ⟨y, rfl, hy, fun hm => inLine (List.mem_cons_of_mem x hm)⟩

theorem ne_newline_of_rest : x ≠ '\n' := by
  rintro rfl
  rcases rest_cases rest inLine with ⟨-, e, -⟩ | ⟨y, rfl, -⟩
  · cases e
  · exact inLine List.mem_cons_self

theorem exists_cons_of_rest (hr : ¬ (x = '\r' ∧ cfg.crlf = true)) (crlf : cfg.crlf = true) :
    ∃ y, w = x :: y := by
  rcases rest_cases rest inLine with ⟨-, e, -⟩ | ⟨y, hy, -⟩
  · exact absurd ⟨e, crlf⟩ hr
  · exact ⟨y, hy⟩

end

theorem Faces.indented {s : State} {x : Char} {t w : List Char} (rest : x :: t = w ++ '\r' :: '\n' :: r)
    (inLine : '\n' ∉ w) (some : ¬ w.all cfg.isIndent = true) :
    Faces cfg r ⟨s, (x :: t).dropWhile cfg.isIndent⟩ ['\r', '\n'] := by
  obtain ⟨c, hc, stop⟩ := List.all_eq_false.mp (Bool.eq_false_iff.mpr some)
  obtain ⟨drop, -⟩ := Scan.dropWhile_append_of_stop (Bool.eq_false_iff.mpr stop) ('\r' :: '\n' :: r) hc
  rw [← rest] at drop
  refine .kept drop (mt (List.dropWhile_sublist _).mem inLine) fun _ => ?_
  apply measuresReturn_of_not_all
  intro all
  apply some
  rw [← List.takeWhile_append_dropWhile (p := cfg.isIndent) (l := w), List.all_append, all,
    List.all_takeWhile]
  rfl

theorem Scan.Turn.kept {p : Piece Verdict} (t : Turn cfg a p) (crlf : cfg.crlf = true) {w : List Char}
    (rest : a.rest = w ++ '\r' :: '\n' :: r) (inLine : '\n' ∉ w)
    (keeps : a.state.atLineStart = true → cfg.measuresReturn w = false) :
    p.Breaks (.produced .lineBreak) ['\r', '\n'] r ∨ Faces cfg r p.next ['\r', '\n'] := by
  cases t with
  | finalBreak | lastClose | theEnd => simp at rest
  | lineFeed => exact absurd rfl (ne_newline_of_rest rest inLine)
  | returnLineFeed =>
    left
    rcases rest_cases rest inLine with ⟨-, -, e⟩ | ⟨y, -, hy, inLine⟩
    · cases e
      exact ⟨rfl, rfl, rfl⟩
    · exact absurd rfl (ne_newline_of_rest hy inLine)
  | loneReturn _ alone =>
    right
    rcases rest_cases rest inLine with ⟨-, -, rfl⟩ | ⟨y, rfl, hy, inLine⟩
    · exact absurd rfl alone
    · refine .kept hy inLine fun flag => ?_
      rw [← measuresReturn_return crlf]
      exact keeps flag
  | @comment s x y hn hr hc =>
    right
    refine .kept (w := w.dropWhile fun y => !cfg.endsComment y) ?_ (mt (List.dropWhile_sublist _).mem inLine) nofun
    show (x :: y).dropWhile (fun y => !cfg.endsComment y) = _
    rw [show x :: y = _ from rest]
    exact dropWhile_append_cons (p := fun y => !cfg.endsComment y) (by simp [Config.endsComment, crlf])
  | inside => exact .inr (.kept rest inLine keeps)
  | closesOne _ hs => exact .inr (.kept rest inLine fun _ => keeps hs)
  | blank hx hs =>
    right
    obtain ⟨y, rfl⟩ := exists_cons_of_rest rest inLine hx.ret crlf
    -- the line is blank for a comment, so indentation ends before the return
    have keeps := keeps hs
    rw [measuresReturn_of_plain hx] at keeps
    exact .indented rest inLine (Bool.eq_false_iff.mp keeps)
  | settled _ _ hm | tooDeep _ _ hm | level _ _ hm =>
    -- indentation that ran up to the line feed would have been blank
    right
    rw [show _ :: _ = _ from rest] at hm
    exact .indented rest inLine (not_all_of_measure crlf hm)

theorem Scan.Turn.taken {p : Piece Verdict} (t : Turn cfg a p) (crlf : cfg.crlf = true) {w : List Char}
    (rest : a.rest = w ++ '\r' :: '\n' :: r) (inLine : '\n' ∉ w) (start : a.state.atLineStart = true)
    (takes : cfg.measuresReturn w = true) : Faces cfg r p.next ['\n'] := by
  cases t with
  | finalBreak | lastClose | theEnd => simp at rest
  | lineFeed => exact absurd rfl (ne_newline_of_rest rest inLine)
  | returnLineFeed =>
    rcases rest_cases rest inLine with ⟨rfl, -⟩ | ⟨y, -, hy, inLine⟩
    · cases takes
    · exact absurd rfl (ne_newline_of_rest hy inLine)
  | loneReturn _ alone =>
    rcases rest_cases rest inLine with ⟨-, -, rfl⟩ | ⟨y, rfl, hy, inLine⟩
    · exact absurd rfl alone
    · refine .taken hy inLine start ?_
      rw [← measuresReturn_return crlf]
      exact takes
  | comment hn hr hc =>
    obtain ⟨y, rfl⟩ := exists_cons_of_rest rest inLine hr crlf
    rw [measuresReturn_of_mark hr hc] at takes
    cases takes
  | inside _ flag =>
    rw [flag] at start
    cases start
  | closesOne => exact .taken rest inLine rfl takes
  | blank hx hs =>
    obtain ⟨y, rfl⟩ := exists_cons_of_rest rest inLine hx.ret crlf
    rw [measuresReturn_of_plain hx] at takes
    refine .between ?_
    show (_ :: _ : List Char).dropWhile _ = _
    rw [show _ :: _ = _ from rest]
    exact dropWhile_indent_of_all crlf takes
  | settled hx _ hm | tooDeep hx _ hm | level hx _ hm =>
    obtain ⟨y, rfl⟩ := exists_cons_of_rest rest inLine hx.ret crlf
    rw [measuresReturn_of_plain hx] at takes
    rw [show _ :: _ = _ from rest] at hm
    exact absurd takes (not_all_of_measure crlf hm)

theorem Scan.Turn.faces {p : Piece Verdict} (t : Turn cfg a p) (crlf : cfg.crlf = true)
    (h : Faces cfg r a v) : p.Breaks (.produced .lineBreak) v r ∨ Faces cfg r p.next v := by
  cases h with
  | kept rest inLine keeps => exact t.kept crlf rest inLine keeps
  | taken rest inLine start takes => exact .inr (t.taken crlf rest inLine start takes)
  | between rest => exact .inl (t.between rest)

theorem Content.rest_of_lexOne {c : Char} {w : List Char} {t : Taken} (inLine : '\n' ∉ w)
    (ht : lexOne (c :: (w ++ '\r' :: '\n' :: r)) = some t) :
    ∃ y, t.rest = y ++ '\r' :: '\n' :: r ∧ '\n' ∉ y := by
  rw [lexOne_append_of_candidates (candidates_append_of_stop _ (.inl rfl))] at ht
  obtain ⟨u, hu, rfl⟩ := Option.map_eq_some_iff.mp ht
  refine ⟨u.rest, rfl, fun hm => inLine ?_⟩
  have split : c :: w = u.lexeme ++ u.rest := lexOne_append hu
  obtain ⟨d, v, hv⟩ := List.exists_cons_of_ne_nil (lexeme_ne_nil hu)
  rw [hv] at split
  rw [(List.cons.inj split).2]
  exact List.mem_append_right v hm

theorem Advance.faces {m : Piece Sign} (t : Advance cfg a m) (crlf : cfg.crlf = true)
    (h : Faces cfg r a v) : m.Breaks (.token (.scanned .lineBreak)) v r ∨ Faces cfg r m.next v := by
  induction t with
  | scanned turn =>
    rcases turn.faces crlf h with ⟨sign, text, rest⟩ | faces
    · cases sign
      exact .inl ⟨rfl, text, rest⟩
    · exact .inr faces
  | refused turn =>
    rcases turn.faces crlf h with ⟨sign, -⟩ | faces
    · cases sign
    · exact .inr faces
  | content stays flag ht =>
    rcases stays.faces crlf h with ⟨sign, -⟩ | faces
    · cases sign
    · cases faces with
      | @kept w rest inLine =>
        have plain := stays.plain_of_stays rfl rfl
        cases rest
        cases w with
        | nil => exact absurd ⟨rfl, crlf⟩ (plain '\r' rfl).ret
        | cons x w =>
          obtain ⟨y, hy, inLine⟩ := Content.rest_of_lexOne (fun hm => inLine (List.mem_cons_of_mem x hm)) ht
          refine .inr (.kept hy inLine fun start => ?_)
          rw [flag] at start
          cases start
      | taken _ _ start =>
        rw [flag] at start
        cases start
      | between rest =>
        cases rest
        exact absurd rfl (stays.head_ne_newline rfl)
  | done => exact absurd h.mem_newline (by simp)
  | passed turn _ _ ih =>
    rcases turn.faces crlf h with ⟨sign, -⟩ | faces
    · cases sign
    · exact ih faces

theorem Leads.faces {ms : List (Piece Sign)} (h : Leads cfg a ms b) (done : (stride cfg b).sign = .done)
    (crlf : cfg.crlf = true) (faces : Faces cfg r a v) (o i : Nat) :
    ∃ l ∈ (Output.ofStrides o i ms).tokens, l.token = .scanned .lineBreak ∧
      l.span.start + byteLength v = l.span.stop ∧ l.span.stop + byteLength r = o + byteLength a.rest := by
  induction h generalizing o i with
  | refl => exact absurd done (sign_ne_done_of_mem faces.mem_newline)
  | @step a b ms _ _ ih =>
    have split := congrArg byteLength (stride_split cfg a)
    rw [byteLength_append] at split
    rcases (advance cfg a).faces crlf faces with ⟨sign, text, rest⟩ | faces
    · refine ⟨⟨.scanned .lineBreak, o + byteLength (stride cfg a).before,
        o + byteLength (stride cfg a).whole⟩, List.mem_append_left _ ?_, rfl, ?_, ?_⟩
      · rw [Output.ofStride_token sign]
        exact List.mem_singleton_self _
      · rw [← text, Piece.whole]
        simp [Nat.add_assoc]
      · rw [rest] at split
        rw [split, Nat.add_assoc]
    · obtain ⟨l, hl, token, start, stop⟩ := ih done faces (o + byteLength (stride cfg a).whole)
        (i + tokenCount [stride cfg a])
      refine ⟨l, List.mem_append_right _ hl, token, start, ?_⟩
      rw [stop]
      omega

end

/-! ## The terminators of a source -/

theorem exists_lineStart (u : List Char) : ∃ t, LineStart t ∧ u = t ++ lastLine u ∧ '\n' ∉ lastLine u := by
  suffices parts : ∃ t w, LineStart t ∧ u = t ++ w ∧ '\n' ∉ w by
    obtain ⟨t, w, line, rfl, inLine⟩ := parts
    have last : lastLine (t ++ w) = w := by
      rw [lastLine_append t inLine, line.lastLine]
      rfl
    rw [last]
    exact ⟨t, line, rfl, inLine⟩
  induction u with
  | nil => exact ⟨[], [], .inl rfl, rfl, nofun⟩
  | cons x u ih =>
    obtain ⟨t, w, line, rfl, inLine⟩ := ih
    rcases line with rfl | last
    · by_cases feed : x = '\n'
      · exact ⟨[x], w, .inr (by simp [feed]), rfl, inLine⟩
      · refine ⟨[], x :: w, .inl rfl, rfl, fun hm => ?_⟩
        rcases List.mem_cons.mp hm with e | hm
        · exact feed e.symm
        · exact inLine hm
    · exact ⟨x :: t, w, .inr (by simp [List.getLast?_cons, last]), rfl, inLine⟩

section
variable {cfg : Config} (crlf : cfg.crlf = true) (u r : List Char)
include crlf

theorem exists_lineBreak : ∃ l ∈ (tokenize (u ++ '\r' :: '\n' :: r) cfg).tokens,
    l.token = .scanned .lineBreak ∧ l.span.stop = byteLength u + 2 ∧
      l.span.start + byteLength (if cfg.measuresReturn (lastLine u) then ['\n'] else ['\r', '\n']) =
        l.span.stop := by
  obtain ⟨t, line, hu, inLine⟩ := exists_lineStart u
  obtain ⟨ms, s, at', text, leads⟩ := leads_of_lineStart cfg line (.initial cfg.maxDepth)
  have leads := leads (lastLine u ++ '\r' :: '\n' :: r)
  rw [← List.append_assoc, ← hu] at leads
  have flag := (Leads.flags leads (at'.map_extend _)).1
  obtain ⟨b, onward, done⟩ := leads_to_end cfg ⟨s, lastLine u ++ '\r' :: '\n' :: r⟩
  obtain ⟨l, hl, token, start, stop⟩ := onward.faces done crlf (Faces.start flag inLine rfl)
    (byteLength (textOf (ms.map (Piece.extend (lastLine u ++ '\r' :: '\n' :: r)))))
    (tokenCount (ms.map (Piece.extend (lastLine u ++ '\r' :: '\n' :: r))))
  rw [textOf_map_extend, text] at stop
  refine ⟨l, ?_, token, ?_, start⟩
  · rw [tokenize_of_leads leads]
    exact List.mem_append_right _ hl
  · have length : byteLength u = byteLength t + byteLength (lastLine u) := by
      rw [← byteLength_append, ← hu]
    have two : byteLength ('\r' :: '\n' :: r) = 2 + byteLength r := byteLength_append ['\r', '\n'] r
    rw [byteLength_append, two] at stop
    omega

theorem lineBreak_mem : ⟨.scanned .lineBreak,
    if cfg.measuresReturn (lastLine u) then byteLength u + 1 else byteLength u, byteLength u + 2⟩ ∈
      (tokenize (u ++ '\r' :: '\n' :: r) cfg).tokens := by
  obtain ⟨⟨t, start', stop'⟩, hl, token, stop, start⟩ := exists_lineBreak crlf u r
  cases token
  cases stop
  by_cases takes : cfg.measuresReturn (lastLine u) = true
  · rw [if_pos takes] at start ⊢
    cases Nat.add_right_cancel (m := 1) start
    exact hl
  · rw [if_neg takes] at start ⊢
    cases Nat.add_right_cancel (m := 2) start
    exact hl

/-- The line break of a return and a line feed has both for its text, unless indentation takes the
return: where the line holds nothing but indentation, some of it no return, and no comment. -/
theorem returnLineFeed_tokenize :
    (tokenize (u ++ '\r' :: '\n' :: r) cfg).tokens.filter (·.span.endsWith (byteLength u + 1)) =
        [⟨.scanned .lineBreak, if cfg.measuresReturn (lastLine u) then byteLength u + 1 else byteLength u,
          byteLength u + 2⟩] ∧
      ((tokenize (u ++ '\r' :: '\n' :: r) cfg).tokens.count
          ⟨.scanned .lineBreak, byteLength u, byteLength u + 2⟩ = 1 ↔
        cfg.measuresReturn (lastLine u) = false) := by
  have ends : ∀ start ≤ byteLength u + 1,
      Span.endsWith (byteLength u + 1) ⟨start, byteLength u + 2⟩ = true := by
    intro start le
    rw [Span.endsWith_iff]
    exact ⟨le, rfl⟩
  have once := filter_eq_singleton (q := fun l : Lexeme => l.span.endsWith (byteLength u + 1))
    (lineBreak_mem crlf u r) (ends _ (by split <;> omega)) ((covers_tokenize _ cfg).once _)
  refine ⟨once, ?_⟩
  rw [← List.count_filter (p := fun l : Lexeme => l.span.endsWith (byteLength u + 1))
    (ends _ (Nat.le_succ _)), once]
  by_cases takes : cfg.measuresReturn (lastLine u) = true
  · simp [takes]
  · simp [takes]

end

theorem returnLineFeed_tokenize_behind_content : ({} : Config).crlf = true ∧
    (tokenize ("\ta".toList ++ '\r' :: '\n' :: []) {}).tokens.count ⟨.scanned .lineBreak, 2, 4⟩ = 1 :=
  ⟨rfl, (returnLineFeed_tokenize rfl "\ta".toList []).2.mpr (by decide)⟩

/-- A tab in front of the terminator, and only the line feed is left for the line break. -/
theorem returnLineFeed_tokenize_behind_tab : ({} : Config).crlf = true ∧
    (tokenize "\t\r\n".toList {}).tokens = [⟨.scanned .lineBreak, 2, 3⟩, ⟨.scanned .lineBreak, 3, 3⟩] ∧
    (tokenize "\t\r\n".toList {}).tokens.count ⟨.scanned .lineBreak, 1, 3⟩ = 0 := by
  decide +kernel

end Offside
