import Offside.Proofs.LineByLine

/-!
# What one reading can do

`Scan.Turn` lists every way a reading can go when all kinds of the variant are acceptable, with the
text it takes and the state it leaves (`turn`). `Advance` lists what a stride can do: decide
something, take a content token inside a line, or end, each behind readings that decide nothing
(`advance`). What holds of every reading and every stride is proved by cases on these two.
-/

namespace Offside

namespace Scan

inductive Settles (cfg : Config) (depth : Nat) (k : Stack) : Kind → Stack → Prop
  | opens {k' : Stack} : k.top < depth → k.push depth = .ok k' → Settles cfg depth k .indentOpen k'
  | closes : depth < k.top → ¬ depth < k.pop.top → Settles cfg depth k .indentClose k.pop
  | stays : depth = k.top → cfg.sameLevel = true → Settles cfg depth k .sameLevel k

inductive Turn (cfg : Config) : Spot → Piece Verdict → Prop
  | finalBreak {s : State} : finalBreakDue cfg s = true →
      Turn cfg ⟨s, []⟩
        ⟨.produced .lineBreak, [], [], ⟨{ s with finalBreakDone := true, atLineStart := true }, []⟩⟩
  | lastClose {s : State} : finalBreakDue cfg s = false → s.stack.isBase = false →
      Turn cfg ⟨s, []⟩ ⟨.produced .indentClose, [], [], ⟨{ s with stack := s.stack.pop }, []⟩⟩
  | theEnd {s : State} : finalBreakDue cfg s = false → s.stack.isBase = true →
      Turn cfg ⟨s, []⟩ ⟨.nothing, [], [], ⟨s, []⟩⟩
  | lineFeed {s : State} {r : List Char} :
      Turn cfg ⟨s, '\n' :: r⟩
        ⟨.produced .lineBreak, [], ['\n'], ⟨{ s with atLineStart := true }, r⟩⟩
  | returnLineFeed {s : State} {r : List Char} : cfg.crlf = true →
      Turn cfg ⟨s, '\r' :: '\n' :: r⟩
        ⟨.produced .lineBreak, [], ['\r', '\n'], ⟨{ s with atLineStart := true }, r⟩⟩
  | loneReturn {s : State} {r : List Char} : cfg.crlf = true → r.head? ≠ some '\n' →
      Turn cfg ⟨s, '\r' :: r⟩ ⟨.nothing, ['\r'], [], ⟨s, r⟩⟩
  | comment {s : State} {x : Char} {r : List Char} : x ≠ '\n' → ¬ (x = '\r' ∧ cfg.crlf = true) →
      cfg.isCommentMark x = true →
      Turn cfg ⟨s, x :: r⟩ ⟨.produced .comment, [], (x :: r).takeWhile (fun y => !cfg.endsComment y),
        ⟨{ s with atLineStart := false }, (x :: r).dropWhile (fun y => !cfg.endsComment y)⟩⟩
  | inside {s : State} {x : Char} {r : List Char} : Plain cfg x → s.atLineStart = false →
      Turn cfg ⟨s, x :: r⟩ ⟨.nothing, [], [], ⟨s, x :: r⟩⟩
  | blank {s : State} {x : Char} {r : List Char} : Plain cfg x → s.atLineStart = true →
      cfg.measure (x :: r) = .blank →
      Turn cfg ⟨s, x :: r⟩ ⟨.nothing, (x :: r).takeWhile cfg.isIndent, [],
        ⟨if ((x :: r).dropWhile cfg.isIndent).isEmpty then { s with atLineStart := false } else s,
          (x :: r).dropWhile cfg.isIndent⟩⟩
  | settled {s : State} {x : Char} {r : List Char} {depth : Nat} {k : Kind} {stack : Stack} :
      Plain cfg x → s.atLineStart = true → cfg.measure (x :: r) = .line depth →
      Settles cfg depth s.stack k stack →
      Turn cfg ⟨s, x :: r⟩ ⟨.produced k, (x :: r).takeWhile cfg.isIndent, [],
        ⟨{ s with stack, atLineStart := false }, (x :: r).dropWhile cfg.isIndent⟩⟩
  /-- The line ends this level and more. -/
  | closesOne {s : State} {x : Char} {r : List Char} {depth : Nat} :
      Plain cfg x → s.atLineStart = true → cfg.measure (x :: r) = .line depth →
      depth < s.stack.top → depth < s.stack.pop.top →
      Turn cfg ⟨s, x :: r⟩
        ⟨.produced .indentClose, [], [], ⟨{ s with stack := s.stack.pop, atLineStart := true }, x :: r⟩⟩
  | tooDeep {s : State} {x : Char} {r : List Char} {depth : Nat} {e : Stack.Error} :
      Plain cfg x → s.atLineStart = true → cfg.measure (x :: r) = .line depth →
      s.stack.top < depth → s.stack.push depth = .error e →
      Turn cfg ⟨s, x :: r⟩ ⟨.refused e, [], (x :: r).takeWhile cfg.isIndent,
        ⟨{ s with atLineStart := false }, (x :: r).dropWhile cfg.isIndent⟩⟩
  | level {s : State} {x : Char} {r : List Char} {depth : Nat} :
      Plain cfg x → s.atLineStart = true → cfg.measure (x :: r) = .line depth →
      depth = s.stack.top → cfg.sameLevel = false →
      Turn cfg ⟨s, x :: r⟩ ⟨.nothing, (x :: r).takeWhile cfg.isIndent, [],
        ⟨{ s with atLineStart := false }, (x :: r).dropWhile cfg.isIndent⟩⟩

section
variable {cfg : Config} {s : State}

theorem turn_end : Turn cfg ⟨s, []⟩ (reading cfg cfg.kinds ⟨s, []⟩) := by
  simp only [reading, readEnd, Config.contains_lineBreak, Config.contains_indentClose, Bool.and_true]
  cases due : finalBreakDue cfg s with
  | true => exact .finalBreak due
  | false =>
    cases base : s.stack.isBase with
    | true => exact .theEnd due base
    | false => exact .lastClose due base

variable {x : Char} {r : List Char}

theorem turn_return (crlf : cfg.crlf = true) :
    Turn cfg ⟨s, '\r' :: r⟩ (reading cfg cfg.kinds ⟨s, '\r' :: r⟩) := by
  rw [reading_return crlf]
  by_cases hl : r.head? = some '\n'
  · obtain ⟨r, rfl⟩ := List.head?_eq_some_iff.mp hl
    exact .returnLineFeed crlf
  · rw [readReturn_of_ne hl]
    exact .loneReturn crlf hl

theorem turn_line {depth : Nat} (hx : Plain cfg x) (hs : s.atLineStart = true)
    (hm : cfg.measure (x :: r) = .line depth) :
    Turn cfg ⟨s, x :: r⟩ (reading cfg cfg.kinds ⟨s, x :: r⟩) := by
  rw [reading_start hx hs, readIndentation]
  simp only [hm, readLine, Config.contains_indentOpen, Config.contains_indentClose,
    Config.contains_sameLevel, if_true, Bool.and_self]
  split
  · next deeper =>
    cases hp : s.stack.push depth with
    | ok stack => exact .settled hx hs hm (.opens deeper hp)
    | error e => exact .tooDeep hx hs hm deeper hp
  · next deeper =>
    split
    · next less =>
      split
      · next more =>
        rw [List.takeWhile_append_dropWhile]
        exact .closesOne hx hs hm less more
      · next more => exact .settled hx hs hm (.closes less more)
    · next less =>
      have same : depth = s.stack.top := by omega
      split
      · next mark => exact .settled hx hs hm (.stays same mark)
      · next mark => exact .level hx hs hm same (Bool.eq_false_iff.mpr mark)

end

theorem turn (cfg : Config) (a : Spot) : Turn cfg a (reading cfg cfg.kinds a) := by
  obtain ⟨s, t⟩ := a
  cases t with
  | nil => exact turn_end
  | cons x r =>
    by_cases hn : x = '\n'
    · subst hn
      rw [reading_newline]
      exact .lineFeed
    by_cases hr : x = '\r' ∧ cfg.crlf = true
    · obtain ⟨rfl, crlf⟩ := hr
      exact turn_return crlf
    by_cases hc : cfg.isCommentMark x = true
    · rw [reading_comment hn hr hc]
      exact .comment hn hr hc
    have hx : Plain cfg x := ⟨hn, hr, hc⟩
    cases hs : s.atLineStart with
    | false =>
      rw [reading_inside hx hs]
      exact .inside hx hs
    | true =>
      cases hm : cfg.measure (x :: r) with
      | line depth => exact turn_line hx hs hm
      | blank =>
        rw [reading_start hx hs, readIndentation]
        simp only [hm]
        exact .blank hx hs hm

/-- A blank line has indentation, or the scanner would have met what follows it first. -/
theorem indent_ne_nil_of_blank {cfg : Config} {x : Char} {r : List Char} (hx : Plain cfg x)
    (hm : cfg.measure (x :: r) = .blank) : (x :: r).takeWhile cfg.isIndent ≠ [] := by
  intro none
  have parts := List.takeWhile_append_dropWhile (p := cfg.isIndent) (l := x :: r)
  rw [none, List.nil_append] at parts
  rw [Config.measure, parts] at hm
  simp only [beq_iff_eq, Bool.or_eq_true] at hm
  rw [if_neg (not_or.mpr ⟨hx.newline, hx.comment⟩)] at hm
  cases hm

theorem Turn.flag_of_stays {cfg : Config} {a : Spot} {p : Piece Verdict} (h : Turn cfg a p)
    (hs : p.sign = .nothing) (hw : p.whole = []) : p.next.state.atLineStart = false ∨ a.rest = [] := by
  cases h with
  | theEnd => exact .inr rfl
  | inside _ flag => exact .inl flag
  | level => exact .inl rfl
  | blank hx _ hm => exact absurd (List.append_eq_nil_iff.mp hw).1 (indent_ne_nil_of_blank hx hm)
  | loneReturn => cases hw
  | finalBreak | lastClose | lineFeed | returnLineFeed | comment | settled | closesOne | tooDeep => cases hs

theorem Turn.plain_of_stays {cfg : Config} {a : Spot} {p : Piece Verdict} (t : Turn cfg a p)
    (hs : p.sign = .nothing) (hw : p.whole = []) : ∀ x ∈ a.rest.head?, Plain cfg x := by
  cases t with
  | theEnd => nofun
  | inside hx | blank hx | level hx => simpa using hx
  | loneReturn => cases hw
  | finalBreak | lastClose | lineFeed | returnLineFeed | comment | settled | closesOne | tooDeep => cases hs

theorem Turn.split {cfg : Config} {a : Spot} {p : Piece Verdict} (t : Turn cfg a p) :
    a.rest = p.whole ++ p.next.rest := by
  cases t <;> simp

theorem Turn.text_of_nothing {cfg : Config} {a : Spot} {p : Piece Verdict} (h : Turn cfg a p)
    (hs : p.sign = .nothing) : p.text = [] := by
  cases h <;> first | rfl | cases hs

end Scan

inductive Advance (cfg : Config) : Spot → Piece Sign → Prop
  | scanned {a b : Spot} {k : Kind} {v w : List Char} :
      Scan.Turn cfg a ⟨.produced k, v, w, b⟩ → Advance cfg a ⟨.token (.scanned k), v, w, b⟩
  | refused {a b : Spot} {e : Stack.Error} {v w : List Char} :
      Scan.Turn cfg a ⟨.refused e, v, w, b⟩ → Advance cfg a ⟨.refused e, v, w, b⟩
  | content {s s' : State} {r : List Char} {t : Content.Taken} :
      Scan.Turn cfg ⟨s, r⟩ ⟨.nothing, [], [], ⟨s', r⟩⟩ → s'.atLineStart = false →
      Content.lexOne r = some t →
      Advance cfg ⟨s, r⟩ ⟨.token (.content t.kind), [], t.lexeme, ⟨s', t.rest⟩⟩
  | done {s : State} : Scan.Turn cfg ⟨s, []⟩ ⟨.nothing, [], [], ⟨s, []⟩⟩ →
      Advance cfg ⟨s, []⟩ ⟨.done, [], [], ⟨s, []⟩⟩
  | passed {a b : Spot} {w : List Char} {m : Piece Sign} :
      Scan.Turn cfg a ⟨.nothing, w, [], b⟩ → w ≠ [] → Advance cfg b m → Advance cfg a (m.prepend w)

section
variable {cfg : Config} {a : Spot}

theorem turn_of_nothing (h : (Scan.reading cfg cfg.kinds a).sign = .nothing) :
    Scan.Turn cfg a ⟨.nothing, (Scan.reading cfg cfg.kinds a).whole, [],
      (Scan.reading cfg cfg.kinds a).next⟩ := by
  have t := Scan.turn cfg a
  have none := t.text_of_nothing h
  generalize Scan.reading cfg cfg.kinds a = p at t h none
  obtain ⟨sign, before, text, next⟩ := p
  cases h
  cases none
  rw [Piece.whole_mk, List.append_nil]
  exact t

theorem rest_of_stays (h : (Scan.reading cfg cfg.kinds a).whole = []) :
    (Scan.reading cfg cfg.kinds a).next = ⟨(Scan.reading cfg cfg.kinds a).next.state, a.rest⟩ := by
  have split := Scan.reading_split cfg cfg.kinds a
  rw [h, List.nil_append] at split
  rw [split]

end

theorem advance (cfg : Config) (a : Spot) : Advance cfg a (stride cfg a) := by
  fun_induction stride cfg a with
  | case1 a p k hs =>
    have t : Scan.Turn cfg a p := Scan.turn cfg a
    obtain ⟨sign, before, text, next⟩ := p
    cases hs
    exact .scanned t
  | case2 a p e hs =>
    have t : Scan.Turn cfg a p := Scan.turn cfg a
    obtain ⟨sign, before, text, next⟩ := p
    cases hs
    exact .refused t
  | case3 a p hs hw t ht =>
    have stays := turn_of_nothing hs
    have flag := (Scan.turn cfg a).flag_of_stays hs hw
    rw [hw, rest_of_stays hw] at stays
    refine .content stays (flag.resolve_right fun e => ?_) ht
    rw [Content.lexOne_eq_none_iff.mpr e] at ht
    cases ht
  | case4 a p hs hw ht =>
    have stays := turn_of_nothing hs
    have rest := Content.lexOne_eq_none_iff.mp ht
    have same : p.next = a := reading_of_done hs hw rest
    obtain ⟨s, r⟩ := a
    cases rest
    rw [hw, show (Scan.reading cfg cfg.kinds ⟨s, []⟩).next = ⟨s, []⟩ from same] at stays
    rw [same]
    exact .done stays
  | case5 a p hs hw ih => exact .passed (turn_of_nothing hs) hw ih

end Offside
