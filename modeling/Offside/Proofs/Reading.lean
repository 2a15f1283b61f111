import Offside.Scan.Step

/-!
# What one step of the scanner reads

`Scan.reading` says what a step does from the text ahead alone, without a cursor: what it decides,
what it passes over, and where that leaves it. `agrees_tryScan` ties it to `tryScan`. A reading
takes nothing but the front of the text (`reading_split`), it takes a line feed only into a line
break (`onLine_reading`), and it never looks past one (`reading_extend`).
-/

namespace Offside

/-- Where a scanner stands, but for the offset: what it remembers, and the text ahead. -/
structure Spot where
  state : State
  rest : List Char
deriving DecidableEq, Repr

def Spot.extend (u : List Char) (a : Spot) : Spot := { a with rest := a.rest ++ u }

@[simp] theorem Spot.extend_state (u : List Char) (a : Spot) : (a.extend u).state = a.state := rfl

@[simp] theorem Spot.extend_rest (u : List Char) (a : Spot) : (a.extend u).rest = a.rest ++ u := rfl

/-- What is met at a spot, the text in front of it and of it, and the spot behind. -/
structure Piece (α : Type) where
  sign : α
  /-- Passed over in front of `text`. -/
  before : List Char
  text : List Char
  next : Spot
deriving DecidableEq, Repr

namespace Piece

variable {α : Type}

def whole (p : Piece α) : List Char := p.before ++ p.text

def extend (u : List Char) (p : Piece α) : Piece α := { p with next := p.next.extend u }

def prepend (w : List Char) (p : Piece α) : Piece α := { p with before := w ++ p.before }

@[simp] theorem whole_mk (x : α) (v w : List Char) (a : Spot) :
    (Piece.mk x v w a).whole = v ++ w := rfl

@[simp] theorem whole_prepend (w : List Char) (p : Piece α) : (p.prepend w).whole = w ++ p.whole := by
  simp [whole, prepend]

@[simp] theorem whole_extend (u : List Char) (p : Piece α) : (p.extend u).whole = p.whole := rfl

structure OnLine (cfg : Config) (lineBreak : α) (p : Piece α) : Prop where
  before : '\n' ∉ p.before
  terminator : p.sign = lineBreak →
    p.text = [] ∨ p.text = ['\n'] ∨ cfg.crlf = true ∧ p.text = ['\r', '\n']
  inside : p.sign ≠ lineBreak → '\n' ∉ p.text

end Piece

namespace Scan

/-! ## Readings -/

def readEnd (cfg : Config) (valid : KindSet) (s : State) : Piece Verdict :=
  if finalBreakDue cfg s && valid.contains .lineBreak then
    ⟨.produced .lineBreak, [], [], ⟨{ s with finalBreakDone := true, atLineStart := true }, []⟩⟩
  else if !s.stack.isBase && valid.contains .indentClose then
    ⟨.produced .indentClose, [], [], ⟨{ s with stack := s.stack.pop }, []⟩⟩
  else ⟨.nothing, [], [], ⟨s, []⟩⟩

def readLine (cfg : Config) (valid : KindSet) (s : State) (depth : Nat) (w r : List Char) :
    Piece Verdict :=
  if s.stack.top < depth then
    if valid.contains .indentOpen then
      match s.stack.push depth with
      | .ok stack => ⟨.produced .indentOpen, w, [], ⟨{ s with stack }, r⟩⟩
      | .error e => ⟨.refused e, [], w, ⟨s, r⟩⟩
    else ⟨.nothing, w, [], ⟨s, r⟩⟩
  else if depth < s.stack.top then
    if valid.contains .indentClose then
      if depth < s.stack.pop.top then
        ⟨.produced .indentClose, [], [], ⟨{ s with stack := s.stack.pop, atLineStart := true }, w ++ r⟩⟩
      else ⟨.produced .indentClose, w, [], ⟨{ s with stack := s.stack.pop }, r⟩⟩
    else ⟨.nothing, w, [], ⟨s, r⟩⟩
  else if cfg.sameLevel && valid.contains .sameLevel then ⟨.produced .sameLevel, w, [], ⟨s, r⟩⟩
  else ⟨.nothing, w, [], ⟨s, r⟩⟩

def readIndentation (cfg : Config) (valid : KindSet) (a : Spot) : Piece Verdict :=
  let w := a.rest.takeWhile cfg.isIndent
  let r := a.rest.dropWhile cfg.isIndent
  match cfg.measure a.rest with
  | .blank => ⟨.nothing, w, [], ⟨if r.isEmpty then { a.state with atLineStart := false } else a.state, r⟩⟩
  | .line depth => readLine cfg valid { a.state with atLineStart := false } depth w r

def readReturn (s : State) : List Char → Piece Verdict
  | '\n' :: r => ⟨.produced .lineBreak, [], ['\r', '\n'], ⟨{ s with atLineStart := true }, r⟩⟩
  | r => ⟨.nothing, ['\r'], [], ⟨s, r⟩⟩

def reading (cfg : Config) (valid : KindSet) (a : Spot) : Piece Verdict :=
  match a.rest with
  | [] => readEnd cfg valid a.state
  | x :: r =>
    if x = '\n' ∧ valid.contains .lineBreak then
      ⟨.produced .lineBreak, [], ['\n'], ⟨{ a.state with atLineStart := true }, r⟩⟩
    else if x = '\r' ∧ cfg.crlf ∧ valid.contains .lineBreak then readReturn a.state r
    else if cfg.isCommentMark x ∧ valid.contains .comment then
      ⟨.produced .comment, [], a.rest.takeWhile (fun y => !cfg.endsComment y),
        ⟨{ a.state with atLineStart := false }, a.rest.dropWhile (fun y => !cfg.endsComment y)⟩⟩
    else if a.state.atLineStart ∧ valid.takesIndentation then readIndentation cfg valid a
    else ⟨.nothing, [], [], a⟩

/-! ## Readings and the scanner -/

/-- An outcome says of the cursor `c` what a reading says of the text ahead of it. -/
def Agrees (c : Cursor) (p : Piece Verdict) : Outcome → Prop
  | ⟨.produced k, s, d⟩ =>
    p.sign = .produced k ∧ s = p.next.state ∧ d.tokenStart = c.position + byteLength p.before ∧
      d.stop = ⟨c.position + byteLength p.whole, p.next.rest⟩
  | ⟨v, s, d⟩ =>
    p.sign = v ∧ s = p.next.state ∧ d.here = ⟨c.position + byteLength p.whole, p.next.rest⟩

theorem start_go_skip (q : Char → Bool) : ∀ (r : List Char) (c : Cursor), c.started = false →
    c.start = c.here.offset →
    (Cursor.advanceWhile.go q true r c).start = (Cursor.advanceWhile.go q true r c).here.offset
  | [], _, _, h => h
  | x :: r, c, hs, h => by
    rw [Cursor.advanceWhile.go]
    split
    · refine start_go_skip q r _ ?_ ?_
      · unfold Cursor.advance; split <;> simp [hs]
      · unfold Cursor.advance; split <;> simp [hs, h]
    · exact h

theorem start_go_keep (q : Char → Bool) : ∀ (r : List Char) (c : Cursor),
    (Cursor.advanceWhile.go q false r c).start = c.start
  | [], _ => rfl
  | x :: r, c => by
    rw [Cursor.advanceWhile.go]
    split
    · rw [start_go_keep q r]
      unfold Cursor.advance; split <;> rfl
    · rfl

variable {cfg : Config} {valid : KindSet} {s : State} {c : Cursor}

theorem agrees_mark {p : Piece Verdict} {k : Kind} {d : Cursor} (hk : p.sign = .produced k)
    (hs : d.start = c.position + byteLength p.before)
    (hd : d.here = ⟨c.position + byteLength p.whole, p.next.rest⟩) :
    Agrees c p ⟨.produced k, p.next.state, d.mark⟩ := by
  refine ⟨hk, rfl, ?_, hd⟩
  show min d.start d.here.offset = _
  rw [hs, hd]
  exact Nat.min_eq_left (by simp [Piece.whole, ← Nat.add_assoc])

theorem here_eq {r : List Char} (hr : c.rest = r) : c.here = ⟨c.position + 0, r⟩ := by
  rw [← hr]; rfl

theorem agrees_readEnd (hr : c.rest = []) :
    Agrees c (readEnd cfg valid s) (atEnd cfg valid s c.begin) := by
  unfold readEnd atEnd lineBreak
  split
  · exact agrees_mark rfl rfl (here_eq hr)
  · split
    · exact agrees_mark rfl rfl (here_eq hr)
    · exact ⟨rfl, rfl, here_eq hr⟩

theorem here_advance_cons {x : Char} {r : List Char} {skip : Bool} (hr : c.rest = x :: r) :
    (c.advance skip).here = ⟨c.position + byteLength [x], r⟩ := by
  have : c.here = ⟨c.position, x :: r⟩ := by rw [← hr]; rfl
  rw [Cursor.here_advance, this]; rfl

theorem start_advance_keep : (c.advance false).start = c.start := by
  unfold Cursor.advance; split <;> rfl

theorem readReturn_of_ne {s : State} {r : List Char} (h : r.head? ≠ some '\n') :
    readReturn s r = ⟨.nothing, ['\r'], [], ⟨s, r⟩⟩ := by
  unfold readReturn
  split
  · exact absurd rfl h
  · rfl

theorem agrees_readReturn {r : List Char} (hr : c.rest = '\r' :: r) :
    Agrees c (readReturn s r) (carriageReturn s c.begin) := by
  have h1 : (c.begin.advance false).here = ⟨c.position + byteLength ['\r'], r⟩ :=
    here_advance_cons (c := c.begin) hr
  have hrest : (c.begin.advance false).rest = r := congrArg Point.rest h1
  unfold carriageReturn
  simp only [Cursor.look, hrest]
  split
  · next hl =>
    obtain ⟨t, rfl⟩ := List.head?_eq_some_iff.mp hl
    refine agrees_mark rfl ?_ ?_
    · rw [start_advance_keep, start_advance_keep]; rfl
    · rw [here_advance_cons hrest, Cursor.position, h1]; rfl
  · next hl =>
    rw [readReturn_of_ne hl]
    exact ⟨rfl, rfl, h1⟩

theorem agrees_readLine {depth : Nat} {d : Cursor} {w r : List Char} (hr : c.rest = w ++ r)
    (hs : d.start = c.position + byteLength w) (hd : d.here = ⟨c.position + byteLength w, r⟩)
    (hc : d.commit = some c.here) :
    Agrees c (readLine cfg valid s depth w r) (line cfg valid s depth d) := by
  have passed : Agrees c ⟨.nothing, w, [], ⟨s, r⟩⟩ ⟨.nothing, s, d⟩ :=
    ⟨rfl, rfl, by rw [hd, Piece.whole_mk, List.append_nil]⟩
  have marked {k : Kind} {t : State} : Agrees c ⟨.produced k, w, [], ⟨t, r⟩⟩ ⟨.produced k, t, d.mark⟩ :=
    agrees_mark (p := ⟨.produced k, w, [], ⟨t, r⟩⟩) rfl hs (by rw [hd, Piece.whole_mk, List.append_nil])
  unfold readLine line
  split
  · split
    · cases s.stack.push depth with
      | ok stack => exact marked
      | error e => exact ⟨rfl, rfl, hd⟩
    · exact passed
  · split
    · split
      · simp only
        split
        · -- the end of the token is still fixed in front of the indentation
          have stop : d.stop = c.here := by rw [Cursor.stop, hc]; rfl
          refine ⟨rfl, rfl, ?_, ?_⟩
          · rw [Cursor.tokenStart, stop, hs]
            exact Nat.min_eq_right (Nat.le_add_right _ _)
          · rw [stop]; exact here_eq hr
        · exact marked
      · exact passed
    · split
      · exact marked
      · exact passed

theorem agrees_readIndentation :
    Agrees c (readIndentation cfg valid ⟨s, c.rest⟩) (indentation cfg valid s c.begin) := by
  have hd : (c.begin.mark.advanceWhile cfg.isIndent true).here =
      ⟨c.position + byteLength (c.rest.takeWhile cfg.isIndent), c.rest.dropWhile cfg.isIndent⟩ := by
    rw [Cursor.here_advanceWhile]; rfl
  have hs := start_go_skip cfg.isIndent c.rest c.begin.mark rfl rfl
  unfold readIndentation indentation
  simp only [show c.begin.rest = c.rest from rfl]
  cases cfg.measure c.rest with
  | blank =>
    refine ⟨rfl, ?_, by rw [hd, Piece.whole_mk, List.append_nil]⟩
    rw [Cursor.atEnd, Cursor.rest, hd]
  | line depth =>
    refine agrees_readLine (List.takeWhile_append_dropWhile).symm ?_ hd (by simp; rfl)
    exact hs.trans (congrArg Point.offset hd)

theorem agrees_tryScan (cfg : Config) (valid : KindSet) (s : State) (c : Cursor) :
    Agrees c (reading cfg valid ⟨s, c.rest⟩) (tryScan cfg valid s c.begin) := by
  unfold reading tryScan
  simp only [show c.begin.look = c.rest.head? from rfl]
  cases hr : c.rest with
  | nil => exact agrees_readEnd hr
  | cons x r =>
    simp only [List.head?_cons]
    split
    · next h =>
      obtain ⟨rfl, -⟩ := h
      exact agrees_mark rfl start_advance_keep (here_advance_cons (c := c.begin) hr)
    · split
      · next h =>
        obtain ⟨rfl, -⟩ := h
        exact agrees_readReturn hr
      · split
        · rw [← hr]
          refine agrees_mark rfl (start_go_keep _ _ _) ?_
          rw [Cursor.here_advanceWhile]; rfl
        · split
          · rw [← hr]; exact agrees_readIndentation
          · exact ⟨rfl, rfl, here_eq hr⟩

theorem line_congr {d : Cursor} {depth : Nat} :
    (line cfg valid s depth c).verdict = (line cfg valid s depth d).verdict ∧
      (line cfg valid s depth c).state = (line cfg valid s depth d).state := by
  unfold line
  split
  · split
    · split <;> exact ⟨rfl, rfl⟩
    · exact ⟨rfl, rfl⟩
  · split
    · split
      · simp only; split <;> exact ⟨rfl, rfl⟩
      · exact ⟨rfl, rfl⟩
    · split <;> exact ⟨rfl, rfl⟩

/-- What a step decides and remembers has nothing to do with the token that is open. -/
theorem tryScan_congr {d : Cursor} (h : c.here = d.here) :
    (tryScan cfg valid s c).verdict = (tryScan cfg valid s d).verdict ∧
      (tryScan cfg valid s c).state = (tryScan cfg valid s d).state := by
  have rest : c.rest = d.rest := congrArg Point.rest h
  have look : c.look = d.look := congrArg List.head? rest
  have behind : (c.advance false).look = (d.advance false).look := by
    simp only [Cursor.look, Cursor.rest, Cursor.here_advance, h]
  have after : (c.mark.advanceWhile cfg.isIndent true).atEnd =
      (d.mark.advanceWhile cfg.isIndent true).atEnd := by
    simp only [Cursor.atEnd, Cursor.rest, Cursor.here_advanceWhile, Cursor.here_mark, h]
  unfold tryScan
  rw [look]
  cases d.look with
  | none =>
    simp only [atEnd, lineBreak]
    split
    · exact ⟨rfl, rfl⟩
    · split <;> exact ⟨rfl, rfl⟩
  | some x =>
    simp only
    split
    · exact ⟨rfl, rfl⟩
    · split
      · simp only [carriageReturn, behind]
        split <;> exact ⟨rfl, rfl⟩
      · split
        · exact ⟨rfl, rfl⟩
        · split
          · simp only [indentation, rest, after]
            cases cfg.measure d.rest with
            | blank => exact ⟨rfl, rfl⟩
            | line depth => exact line_congr
          · exact ⟨rfl, rfl⟩

theorem tryScan_eq_reading (cfg : Config) (valid : KindSet) (s : State) (c : Cursor) :
    (tryScan cfg valid s c).verdict = (reading cfg valid ⟨s, c.rest⟩).sign ∧
      (tryScan cfg valid s c).state = (reading cfg valid ⟨s, c.rest⟩).next.state := by
  have agrees := agrees_tryScan cfg valid s c
  have same : (tryScan cfg valid s c).verdict = (tryScan cfg valid s c.begin).verdict ∧
      (tryScan cfg valid s c).state = (tryScan cfg valid s c.begin).state := tryScan_congr rfl
  rw [same.1, same.2]
  generalize tryScan cfg valid s c.begin = o at agrees
  obtain ⟨v, t, d⟩ := o
  cases v <;> exact ⟨agrees.1.symm, agrees.2.1⟩

/-! ## What a reading takes -/

theorem readReturn_split (s : State) (r : List Char) :
    '\r' :: r = (readReturn s r).whole ++ (readReturn s r).next.rest := by
  unfold readReturn; split <;> rfl

theorem readLine_split (cfg : Config) (valid : KindSet) (s : State) (depth : Nat) (w r : List Char) :
    w ++ r = (readLine cfg valid s depth w r).whole ++ (readLine cfg valid s depth w r).next.rest := by
  unfold readLine
  split
  · split
    · split <;> simp
    · simp
  · split
    · split
      · split <;> simp
      · simp
    · split <;> simp

theorem readIndentation_split (cfg : Config) (valid : KindSet) (a : Spot) :
    a.rest = (readIndentation cfg valid a).whole ++ (readIndentation cfg valid a).next.rest := by
  unfold readIndentation
  have parts : a.rest.takeWhile cfg.isIndent ++ a.rest.dropWhile cfg.isIndent = a.rest :=
    List.takeWhile_append_dropWhile
  cases cfg.measure a.rest with
  | blank => simp [parts]
  | line depth => exact parts.symm.trans (readLine_split ..)

theorem readEnd_whole (cfg : Config) (valid : KindSet) (s : State) :
    (readEnd cfg valid s).whole = [] ∧ (readEnd cfg valid s).next.rest = [] := by
  unfold readEnd
  split
  · exact ⟨rfl, rfl⟩
  · split <;> exact ⟨rfl, rfl⟩

theorem reading_split (cfg : Config) (valid : KindSet) (a : Spot) :
    a.rest = (reading cfg valid a).whole ++ (reading cfg valid a).next.rest := by
  unfold reading
  cases hr : a.rest with
  | nil =>
    obtain ⟨h1, h2⟩ := readEnd_whole cfg valid a.state
    simp only [h1, h2, List.nil_append]
  | cons x r =>
    simp only
    split
    · next h => rw [h.1]; rfl
    · split
      · next h => rw [h.1]; exact readReturn_split _ _
      · split
        · simp
        · split
          · rw [← hr]; exact readIndentation_split _ _ _
          · simp [hr]

theorem isIndent_newline (cfg : Config) : cfg.isIndent '\n' = false := by
  simp [Config.isIndent, Config.isFiller]

theorem endsComment_newline (cfg : Config) : cfg.endsComment '\n' = true := by
  simp [Config.endsComment]

theorem not_mem_takeWhile {q : Char → Bool} {x : Char} (h : q x = false) (l : List Char) :
    x ∉ l.takeWhile q := by
  intro hm
  have := List.all_eq_true.mp (List.all_takeWhile (p := q) (l := l)) x hm
  rw [h] at this; cases this

theorem readLine_sign_ne (cfg : Config) (valid : KindSet) (s : State) (depth : Nat) (w r : List Char) :
    (readLine cfg valid s depth w r).sign ≠ .produced .lineBreak := by
  unfold readLine
  split
  · split
    · split <;> nofun
    · nofun
  · split
    · split
      · split <;> nofun
      · nofun
    · split <;> nofun

theorem onLine_readIndentation (cfg : Config) (valid : KindSet) (a : Spot) :
    (readIndentation cfg valid a).OnLine cfg (.produced .lineBreak) := by
  have hw := not_mem_takeWhile (isIndent_newline cfg) a.rest
  unfold readIndentation
  cases cfg.measure a.rest with
  | blank => exact ⟨hw, nofun, by simp⟩
  | line depth =>
    simp only
    have ne := readLine_sign_ne cfg valid { a.state with atLineStart := false } depth
      (a.rest.takeWhile cfg.isIndent) (a.rest.dropWhile cfg.isIndent)
    refine ⟨?_, fun h => absurd h ne, fun _ => ?_⟩
    · unfold readLine; grind
    · unfold readLine; grind

theorem onLine_reading (cfg : Config) (a : Spot) :
    (reading cfg cfg.kinds a).OnLine cfg (.produced .lineBreak) := by
  unfold reading
  cases hr : a.rest with
  | nil =>
    obtain ⟨h1, h2⟩ := List.append_eq_nil_iff.mp (readEnd_whole cfg cfg.kinds a.state).1
    exact ⟨by simp [h1], fun _ => .inl h2, fun _ => by simp [h2]⟩
  | cons x r =>
    simp only [Config.contains_lineBreak, and_true]
    split
    · exact ⟨by simp, fun _ => .inr (.inl rfl), fun h => absurd rfl h⟩
    · split
      · next h =>
        unfold readReturn
        split
        · exact ⟨by simp, fun _ => .inr (.inr ⟨h.2, rfl⟩), fun h => absurd rfl h⟩
        · exact ⟨by simp, nofun, by simp⟩
      · split
        · exact ⟨by simp, nofun, fun _ => not_mem_takeWhile (by simp [endsComment_newline]) _⟩
        · split
          · exact onLine_readIndentation cfg cfg.kinds a
          · exact ⟨by simp, nofun, by simp⟩

theorem readLine_of_refused {cfg : Config} {valid : KindSet} {s : State} {depth : Nat} {w r : List Char}
    {e : Stack.Error} (h : (readLine cfg valid s depth w r).sign = .refused e) :
    s.stack.top < depth ∧ s.stack.push depth = .error e ∧
      readLine cfg valid s depth w r = ⟨.refused e, [], w, ⟨s, r⟩⟩ := by
  unfold readLine at h ⊢
  split at h
  · next lt =>
    split at h
    · next hv =>
      cases hp : s.stack.push depth with
      | ok t => rw [hp] at h; cases h
      | error e' =>
        rw [hp] at h; cases h
        exact ⟨lt, rfl, by rw [if_pos lt, if_pos hv]⟩
    · cases h
  · split at h
    · split at h
      · split at h <;> cases h
      · cases h
    · split at h <;> cases h

/-- A refusal takes the whole indentation of a line that is deeper than the open level. -/
theorem reading_of_refused {cfg : Config} {valid : KindSet} {a : Spot} {e : Stack.Error}
    (h : (reading cfg valid a).sign = .refused e) :
    ∃ depth, cfg.measure a.rest = .line depth ∧ a.state.stack.top < depth ∧
      a.state.stack.push depth = .error e ∧
      reading cfg valid a = ⟨.refused e, [], a.rest.takeWhile cfg.isIndent,
        ⟨{ a.state with atLineStart := false }, a.rest.dropWhile cfg.isIndent⟩⟩ := by
  revert h
  unfold reading
  cases hr : a.rest with
  | nil =>
    simp only [readEnd]
    split
    · nofun
    · split <;> nofun
  | cons x r =>
    simp only
    split
    · nofun
    · split
      · unfold readReturn; split <;> nofun
      · split
        · nofun
        · split
          · unfold readIndentation
            cases hm : cfg.measure a.rest with
            | blank => nofun
            | line depth =>
              intro h
              rw [← hr]
              exact ⟨depth, hm, readLine_of_refused h⟩
          · nofun

theorem before_of_refused {cfg : Config} {valid : KindSet} {a : Spot} {e : Stack.Error}
    (h : (reading cfg valid a).sign = .refused e) : (reading cfg valid a).before = [] := by
  obtain ⟨_, _, _, _, he⟩ := reading_of_refused h
  rw [he]

theorem text_of_refused {cfg : Config} {valid : KindSet} {a : Spot} {e : Stack.Error}
    (h : (reading cfg valid a).sign = .refused e) : (reading cfg valid a).text ≠ [] := by
  obtain ⟨depth, hm, lt, _, he⟩ := reading_of_refused h
  rw [he]
  intro none
  have short := Config.dropWhile_length_lt_of_measure hm (Nat.zero_lt_of_lt lt)
  have parts := List.takeWhile_append_dropWhile (p := cfg.isIndent) (l := a.rest)
  rw [show a.rest.takeWhile cfg.isIndent = [] from none, List.nil_append] at parts
  rw [parts] at short
  exact Nat.lt_irrefl _ short

/-! ## What a reading looks at -/

theorem takeWhile_append_of_stop {q : Char → Bool} {x : Char} (h : q x = false) :
    ∀ {l : List Char} (u : List Char), x ∈ l → (l ++ u).takeWhile q = l.takeWhile q
  | y :: l, u, hm => by
    by_cases hy : q y = true
    · have hl : x ∈ l := by
        rcases List.mem_cons.mp hm with rfl | hl
        · rw [h] at hy; cases hy
        · exact hl
      simp [hy, takeWhile_append_of_stop h u hl]
    · simp [hy]

theorem dropWhile_append_of_stop {q : Char → Bool} {x : Char} (h : q x = false) :
    ∀ {l : List Char} (u : List Char), x ∈ l →
      (l ++ u).dropWhile q = l.dropWhile q ++ u ∧ l.dropWhile q ≠ []
  | y :: l, u, hm => by
    by_cases hy : q y = true
    · have hl : x ∈ l := by
        rcases List.mem_cons.mp hm with rfl | hl
        · rw [h] at hy; cases hy
        · exact hl
      simpa [hy] using dropWhile_append_of_stop h u hl
    · simp [hy]

theorem measure_append {cfg : Config} {t : List Char} (u : List Char) (h : '\n' ∈ t) :
    cfg.measure (t ++ u) = cfg.measure t := by
  obtain ⟨hd, ne⟩ := dropWhile_append_of_stop (isIndent_newline cfg) u h
  have depth : cfg.depthOf (t ++ u) = cfg.depthOf t := by
    unfold Config.depthOf; rw [takeWhile_append_of_stop (isIndent_newline cfg) u h]
  obtain ⟨c, r, hc⟩ := List.exists_cons_of_ne_nil ne
  simp only [Config.measure, hd, hc, depth, List.cons_append]

theorem readLine_append (cfg : Config) (valid : KindSet) (s : State) (depth : Nat) (w r u : List Char) :
    readLine cfg valid s depth w (r ++ u) = (readLine cfg valid s depth w r).extend u := by
  unfold readLine
  split
  · split
    · split <;> rfl
    · rfl
  · split
    · split
      · split
        · simp [Piece.extend, Spot.extend]
        · rfl
      · rfl
    · split <;> rfl

theorem readIndentation_extend {cfg : Config} {valid : KindSet} {a : Spot} (u : List Char)
    (h : '\n' ∈ a.rest) :
    readIndentation cfg valid (a.extend u) = (readIndentation cfg valid a).extend u := by
  obtain ⟨hd, ne⟩ := dropWhile_append_of_stop (isIndent_newline cfg) u h
  unfold readIndentation
  simp only [Spot.extend_rest, Spot.extend_state, measure_append u h, hd,
    takeWhile_append_of_stop (isIndent_newline cfg) u h]
  cases cfg.measure a.rest with
  | blank => simp [Piece.extend, Spot.extend, ne]
  | line depth => exact readLine_append ..

theorem readReturn_append (s : State) {r : List Char} (u : List Char) (h : r ≠ []) :
    readReturn s (r ++ u) = (readReturn s r).extend u := by
  obtain ⟨y, r, rfl⟩ := List.exists_cons_of_ne_nil h
  rw [List.cons_append]
  by_cases hy : y = '\n'
  · subst hy; rfl
  · simp [readReturn, hy, Piece.extend, Spot.extend]

theorem reading_extend {cfg : Config} {valid : KindSet} {a : Spot} (u : List Char)
    (h : '\n' ∈ a.rest) : reading cfg valid (a.extend u) = (reading cfg valid a).extend u := by
  obtain ⟨s, t⟩ := a
  cases t with
  | nil => cases h
  | cons x r =>
    show reading cfg valid ⟨s, x :: (r ++ u)⟩ = _
    simp only [reading]
    split
    · rfl
    · split
      · next hc =>
        have hm : '\n' ∈ r := by simpa [hc.1] using h
        exact readReturn_append s u (List.ne_nil_of_mem hm)
      · split
        · have stop : (fun y => !cfg.endsComment y) '\n' = false := by simp [endsComment_newline]
          rw [← List.cons_append, takeWhile_append_of_stop stop u h,
            (dropWhile_append_of_stop stop u h).1]
          rfl
        · split
          · exact readIndentation_extend u h
          · rfl

end Scan

end Offside
