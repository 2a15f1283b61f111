import Mathlib.Order.Bounds.Defs
import Offside.Proofs.Boundary
import Offside.Scan.Cursor
import Offside.Token.Lexeme

/-!
# Ranges of tokens

A cursor may be used in any order: tokens are opened and closed, characters kept or skipped, ends
fixed, and places taken up anew. Its places stay between characters through all of it
(`Cursor.Sits`). While a token is only read, where it starts follows from the characters skipped in
front of the first one kept (`start_after`), and where it ends from the last mark (`stop_after`).
The two give the range of the token (`ranges_exact`).
-/

namespace Offside

theorem IsBoundary.le {n : Nat} {text : List Char} (h : IsBoundary n text) : n ≤ byteLength text := by
  obtain ⟨u, r, rfl, rfl⟩ := h
  simp

/-! ## Places in a text -/

namespace Point

theorem seek_le {limit o : Nat} (r : List Char) (h : o ≤ limit) : (seek limit o r).offset ≤ limit := by
  induction r generalizing o with
  | nil => exact h
  | cons c r ih =>
    unfold seek
    split
    · next fits => exact ih fits
    · exact h

theorem le_seek {limit o : Nat} {u r : List Char} (h : o + byteLength u ≤ limit) :
    o + byteLength u ≤ (seek limit o (u ++ r)).offset := by
  induction u generalizing o with
  | nil => exact (seek_reaches limit o r).offset_le
  | cons c u ih =>
    rw [byteLength_cons, ← Nat.add_assoc] at h ⊢
    rw [List.cons_append, seek, if_pos (by omega)]
    exact ih h

theorem reaches_atOffset (text : List Char) (n : Nat) : (origin text).Reaches (atOffset text n) :=
  seek_reaches n 0 text

section
variable {text : List Char} {p : Point} (h : (origin text).Reaches p)
include h

theorem Reaches.isBoundary : IsBoundary p.offset text := by
  obtain ⟨w, split, offset⟩ := h
  exact ⟨w, p.rest, split, by simp [offset, origin]⟩

theorem Reaches.rest_eq : dropBytes? p.offset text = some p.rest := by
  obtain ⟨w, split, offset⟩ := h
  exact dropBytes?_eq_some_iff.mpr ⟨w, split, by simp [offset, origin]⟩

end

theorem isGreatest_atOffset (text : List Char) (n : Nat) :
    IsGreatest {b | IsBoundary b text ∧ b ≤ min n (byteLength text)} (atOffset text n).offset := by
  have boundary := (reaches_atOffset text n).isBoundary
  refine ⟨⟨boundary, Nat.le_min.mpr ⟨seek_le text (Nat.zero_le n), boundary.le⟩⟩, ?_⟩
  rintro b ⟨⟨u, r, rfl, rfl⟩, le⟩
  have within : 0 + byteLength u ≤ n := by omega
  simpa [atOffset] using le_seek (r := r) within

end Point

/-! ## Using a cursor -/

namespace Cursor

inductive Op where
  | begin
  | advance (skip : Bool)
  | mark
  | close
  | moveTo (offset : Nat)
deriving DecidableEq, Repr

namespace Op

def opens : Op → Bool
  | begin | close | moveTo _ => true
  | advance _ | mark => false

def skip? : Op → Option Bool
  | advance skip => some skip
  | _ => none

/-- The characters that are skipped before the first one that is kept, where `rest` is ahead. At its
end an advance does nothing. -/
def skipped (ops : List Op) (rest : List Char) : List Char :=
  (((ops.filterMap skip?).zip rest).takeWhile (·.1)).map (·.2)

def upToMark : List Op → List Op
  | [] => []
  | op :: ops => if op = mark ∧ mark ∉ ops then [op] else op :: upToMark ops

theorem upToMark_of_not_mem {ops : List Op} (h : mark ∉ ops) : upToMark ops = ops := by
  induction ops with
  | nil => rfl
  | cons op ops ih =>
    obtain ⟨other, none⟩ := List.ne_and_not_mem_of_not_mem_cons h
    rw [upToMark, if_neg fun e => other e.1.symm, ih none]

@[simp] theorem skipped_of_end (ops : List Op) : skipped ops [] = [] := by
  simp [skipped]

theorem skipped_advance (skip : Bool) (ops : List Op) (x : Char) (r : List Char) :
    skipped (advance skip :: ops) (x :: r) = if skip then x :: skipped ops r else [] := by
  cases skip <;> rfl

end Op

def apply (c : Cursor) : Op → Cursor
  | .begin => c.begin
  | .advance skip => c.advance skip
  | .mark => c.mark
  | .close => c.close
  | .moveTo n => c.moveTo n

def after (c : Cursor) (ops : List Op) : Cursor := ops.foldl apply c

def range (c : Cursor) : Span := ⟨c.tokenStart, c.stop.offset⟩

theorem after_cons (c : Cursor) (op : Op) (ops : List Op) : c.after (op :: ops) = (c.apply op).after ops :=
  rfl

theorem after_append (c : Cursor) (ops more : List Op) :
    c.after (ops ++ more) = (c.after ops).after more := List.foldl_append

/-! ## Places stay between characters -/

structure Sits (text : List Char) (c : Cursor) : Prop where
  source : c.source = text
  here : (Point.origin text).Reaches c.here
  start : IsBoundary c.start text
  commit : ∀ p ∈ c.commit, (Point.origin text).Reaches p

section
variable {source : List Char} {c : Cursor}

theorem sits_atOffset (source : List Char) (n : Nat) : (atOffset source n).Sits source :=
  have here := Point.reaches_atOffset source n
  ⟨rfl, here, here.isBoundary, nofun⟩

theorem Sits.stop (h : c.Sits source) : (Point.origin source).Reaches c.stop := by
  unfold Cursor.stop
  cases e : c.commit with
  | none => exact h.here
  | some p => exact h.commit p e

theorem Sits.tokenStart (h : c.Sits source) : IsBoundary c.tokenStart source := by
  rw [Cursor.tokenStart]
  rcases Nat.le_total c.start c.stop.offset with le | le
  · rw [Nat.min_eq_left le]
    exact h.start
  · rw [Nat.min_eq_right le]
    exact h.stop.isBoundary

theorem Sits.advance (h : c.Sits source) (skip : Bool) : (c.advance skip).Sits source := by
  have next := h.here.trans (Point.reaches_next c.here)
  unfold Cursor.advance
  split
  · exact h
  · split
    · exact ⟨h.source, next, next.isBoundary, h.commit⟩
    · exact ⟨h.source, next, h.start, h.commit⟩

theorem Sits.apply (h : c.Sits source) (op : Op) : (c.apply op).Sits source := by
  cases op with
  | begin => exact ⟨h.source, h.here, h.here.isBoundary, nofun⟩
  | advance skip => exact h.advance skip
  | mark => exact ⟨h.source, h.here, h.start, fun p hp => Option.some.inj hp ▸ h.here⟩
  | close => exact ⟨h.source, h.stop, h.stop.isBoundary, nofun⟩
  | moveTo n => exact h.source ▸ sits_atOffset c.source n

theorem Sits.after (h : c.Sits source) (ops : List Op) : (c.after ops).Sits source := by
  induction ops generalizing c with
  | nil => exact h
  | cons op ops ih => exact ih (h.apply op)

theorem Sits.isSome_slice? (h : c.Sits source) :
    (slice? source c.range.start c.range.stop).isSome = true := by
  obtain ⟨u, r, split, start⟩ := h.tokenStart
  obtain ⟨v, t, split', stop⟩ := h.stop.isBoundary
  have le : byteLength u ≤ byteLength v := by
    rw [start, stop]
    exact Nat.min_le_right ..
  obtain ⟨w, rfl, rfl⟩ := append_split_of_byteLength_le (split.symm.trans split') le
  rw [range, ← start, ← stop, split, slice?_append]
  rfl

end

/-! ## Reading a token -/

structure Opened (c : Cursor) : Prop where
  start : c.start = c.position
  commit : c.commit = none
  started : c.started = false

theorem opened_atOffset (source : List Char) (n : Nat) : (atOffset source n).Opened := ⟨rfl, rfl, rfl⟩

theorem opened_apply (c : Cursor) {op : Op} (h : op.opens = true) : (c.apply op).Opened := by
  cases op with
  | begin | close | moveTo => exact ⟨rfl, rfl, rfl⟩
  | advance | mark => cases h

theorem opened_after {c : Cursor} (hc : c.Opened) {ops : List Op}
    (h : ∀ op ∈ ops.getLast?, op.opens = true) : (c.after ops).Opened := by
  rcases List.eq_nil_or_concat ops with rfl | ⟨ops, op, rfl⟩
  · exact hc
  · rw [List.concat_eq_append, after_append]
    exact opened_apply _ (h op (by simp))

section
variable {c : Cursor} {x : Char} {r : List Char}

theorem advance_of_end (ahead : c.rest = []) (skip : Bool) : c.advance skip = c := by
  rw [advance, ahead]

theorem advance_skipping (ahead : c.rest = x :: r) (fresh : c.started = false) :
    c.advance true = { c with here := c.here.next, start := c.here.next.offset } := by
  simp [advance, ahead, fresh]

theorem advance_keeping (ahead : c.rest = x :: r) {skip : Bool} (keeps : skip = false ∨ c.started = true) :
    c.advance skip = { c with here := c.here.next, started := true } := by
  rcases keeps with keeps | keeps <;> simp [advance, ahead, keeps]

end

theorem start_of_started {ops : List Op} (reads : ∀ op ∈ ops, op.opens = false) {c : Cursor}
    (h : c.started = true) : (c.after ops).start = c.start := by
  induction ops generalizing c with
  | nil => rfl
  | cons op ops ih =>
    obtain ⟨first, more⟩ := List.forall_mem_cons.mp reads
    cases op with
    | advance skip =>
      cases ahead : c.rest with
      | nil =>
        rw [after_cons, apply, advance_of_end ahead]
        exact ih more h
      | cons x r =>
        rw [after_cons, apply, advance_keeping ahead (.inr h)]
        exact ih more rfl
    | mark => exact ih more h
    | begin | close | moveTo => cases first

theorem start_after {ops : List Op} (reads : ∀ op ∈ ops, op.opens = false) {c : Cursor}
    (start : c.start = c.position) (fresh : c.started = false) :
    (c.after ops).start = c.position + byteLength (Op.skipped ops c.rest) := by
  induction ops generalizing c with
  | nil => exact start
  | cons op ops ih =>
    obtain ⟨first, more⟩ := List.forall_mem_cons.mp reads
    cases op with
    | advance skip =>
      cases ahead : c.rest with
      | nil =>
        have behind := ih more start fresh
        rw [ahead, Op.skipped_of_end] at behind
        rw [after_cons, apply, advance_of_end ahead, Op.skipped_of_end]
        exact behind
      | cons x r =>
        cases skip with
        | true =>
          have next : c.here.next = ⟨c.position + x.utf8Size, r⟩ := by
            simp only [Point.next, position, show c.here.rest = x :: r from ahead]
          have skips := advance_skipping ahead fresh
          have behind := ih (c := c.advance true) more (by rw [skips]; rfl) (by rw [skips]; exact fresh)
          rw [after_cons, apply, behind, position, rest, here_advance, next, Op.skipped_advance, if_pos rfl,
            byteLength_cons, Nat.add_assoc]
        | false =>
          have keeps : c.advance false = _ := advance_keeping ahead (.inl rfl)
          rw [after_cons, apply, start_of_started more (by rw [keeps]), keeps, start]
          rfl
    | mark => exact ih more start fresh
    | begin | close | moveTo => cases first

theorem stop_after {ops : List Op} (reads : ∀ op ∈ ops, op.opens = false) (c : Cursor) :
    (c.after ops).stop =
      if .mark ∈ ops then (c.after (Op.upToMark ops)).here else c.commit.getD (c.after ops).here := by
  induction ops generalizing c with
  | nil => rfl
  | cons op ops ih =>
    obtain ⟨first, more⟩ := List.forall_mem_cons.mp reads
    rw [after_cons, ih more]
    cases op with
    | advance skip => simp [Op.upToMark, apply, after_cons]
    | mark =>
      by_cases again : .mark ∈ ops
      · simp [Op.upToMark, again, after_cons]
      · simp [Op.upToMark, again, apply, mark, after]
    | begin | close | moveTo => cases first

theorem Opened.range_after {c : Cursor} (h : c.Opened) {ops : List Op}
    (reads : ∀ op ∈ ops, op.opens = false) :
    (c.after ops).range =
      ⟨min (c.position + byteLength (Op.skipped ops c.rest)) (c.after (Op.upToMark ops)).position,
        (c.after (Op.upToMark ops)).position⟩ := by
  have stop : (c.after ops).stop = (c.after (Op.upToMark ops)).here := by
    rw [stop_after reads, h.commit]
    split
    · rfl
    · next none => rw [Op.upToMark_of_not_mem none]; rfl
  rw [range, tokenStart, start_after reads h.start h.started, stop]
  rfl

/-- However a cursor is used, its position, the start of its token and the end that is fixed for it
are places between characters of the source, what it reads on from is what stands behind its
position, and the token's range can be cut out. It is put at the last such place up to an offset.
When a token is open from a place on and has only been read, closing it gives a range that ends at
the last mark, or here if there is none, and starts behind the characters that were skipped before
the first one kept, or at the end if that comes first. The cursor then stands at the end. -/
theorem ranges_exact (source : List Char) (offset : Nat) (ops : List Op) :
    let first := atOffset source offset
    let c := first.after ops
    (∀ n, n = c.position ∨ n = c.start ∨ n ∈ c.commit.map Point.offset →
      IsBoundary n source ∧ n ≤ byteLength source) ∧
    dropBytes? c.position source = some c.rest ∧
    (slice? source c.range.start c.range.stop).isSome = true ∧
    (∀ n, IsGreatest {b | IsBoundary b source ∧ b ≤ min n (byteLength source)} (atOffset source n).position ∧
      IsGreatest {b | IsBoundary b source ∧ b ≤ min n (byteLength source)} (c.moveTo n).position) ∧
    ∀ before reads, ops = before ++ reads → (∀ op ∈ before.getLast?, op.opens = true) →
      (∀ op ∈ reads, op.opens = false) →
      let b := first.after before
      let stop := (b.after (Op.upToMark reads)).position
      c.range = ⟨min (b.position + byteLength (Op.skipped reads b.rest)) stop, stop⟩ ∧
        c.close.position = stop := by
  intro first c
  have sits : c.Sits source := (sits_atOffset source offset).after ops
  refine ⟨?_, sits.here.rest_eq, sits.isSome_slice?, fun n => ⟨?_, ?_⟩, ?_⟩
  · have boundary : ∀ n, n = c.position ∨ n = c.start ∨ n ∈ c.commit.map Point.offset →
        IsBoundary n source := by
      rintro n (rfl | rfl | fixed)
      · exact sits.here.isBoundary
      · exact sits.start
      · obtain ⟨p, hp, rfl⟩ := Option.map_eq_some_iff.mp fixed
        exact (sits.commit p hp).isBoundary
    exact fun n hn => ⟨boundary n hn, (boundary n hn).le⟩
  · exact Point.isGreatest_atOffset source n
  · rw [moveTo, sits.source]
    exact Point.isGreatest_atOffset source n
  · rintro before reads rfl opener only
    have opened : (first.after before).Opened := opened_after (opened_atOffset source offset) opener
    have range := opened.range_after only
    rw [← after_append] at range
    exact ⟨range, congrArg Span.stop range⟩

/-- The end may be fixed in front of what is skipped. -/
example : (ofSource ['\t', '\t', 'x'] |>.after [.begin, .mark, .advance true, .advance true]).range =
    ⟨0, 0⟩ := by decide

end Cursor

end Offside
