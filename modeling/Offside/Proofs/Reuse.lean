import Mathlib.Data.List.TakeWhile
import Offside.Proofs.Editing
import Offside.Proofs.Flush

/-!
# What an edit takes over

An edited text is lexed again from the last checkpoint before the edit, and no further than to the
first new checkpoint that has a counterpart in the old output (`Rejoins`). Old checkpoints stand in
order, so a counterpart of a later checkpoint is itself a later one (`Counterpart.index_le`), and the
tokens behind it are among those taken over (`Rejoins.reaches`). `counts_edit` says what the three
counts of an edit tell of the old and the new tokens.
-/

namespace Offside

/-! ## How a run ends -/

inductive Lexer.EndsAt {α : Type} (f : Checkpoint → Option α) (cps : List Checkpoint) : Option α → Prop
  | never : (∀ q ∈ cps, f q = none) → EndsAt f cps none
  | last {ps : List Checkpoint} {p : Checkpoint} {x : α} : cps = ps ++ [p] → (∀ q ∈ ps, f q = none) →
      f p = some x → EndsAt f cps (some x)

theorem Lexer.endsAt_run {α : Type} {cfg : Config} {o i : Nat} {a : Spot} {lx : Lexer} (hat : lx.At cfg o a)
    (f : Checkpoint → Option α) : EndsAt f (lx.run f i).1.checkpoints (lx.run f i).2 := by
  obtain ⟨ms, b, -, out, halts⟩ := hat.run (f := f) (i := i)
  rw [out]
  cases hx : (lx.run f i).2 with
  | none =>
    rw [hx] at halts
    exact .never halts.2
  | some x =>
    rw [hx] at halts
    obtain ⟨-, ps, p, cps, none, found, -⟩ := halts
    exact .last cps none found

namespace Output

/-! ## Parts of an output -/

def LastUpTo (o : Output) (offset : Nat) (p : Checkpoint) : Prop :=
  ∃ ps qs, o.checkpoints = ps ++ p :: qs ∧ p.offset ≤ offset ∧ ∀ q ∈ qs, offset < q.offset

variable {o : Output} {p q : Checkpoint}

theorem LastUpTo.mem {offset : Nat} (h : o.LastUpTo offset p) : p ∈ o.checkpoints := by
  obtain ⟨ps, qs, parts, -, -⟩ := h
  rw [parts]
  exact List.mem_append_right ps List.mem_cons_self

theorem InOrder.lastUpTo (order : o.InOrder) {offset : Nat} (h : o.lastCheckpoint? offset = some p) :
    o.LastUpTo offset p := by
  unfold lastCheckpoint? at h
  obtain ⟨ps, parts⟩ := List.getLast?_eq_some_iff.mp h
  have hp : p ∈ o.checkpoints.takeWhile (·.offset ≤ offset) := List.mem_of_getLast? h
  refine ⟨ps, o.checkpoints.dropWhile (·.offset ≤ offset), ?_, ?_, ?_⟩
  · calc o.checkpoints
        = o.checkpoints.takeWhile (·.offset ≤ offset) ++ o.checkpoints.dropWhile (·.offset ≤ offset) :=
          List.takeWhile_append_dropWhile.symm
      _ = ps ++ p :: o.checkpoints.dropWhile (·.offset ≤ offset) := by
          rw [parts, List.append_assoc, List.singleton_append]
  · have upTo := List.mem_takeWhile_imp hp
    exact of_decide_eq_true upTo
  · intro q hq
    exact order.lt_of_mem_dropWhile hq

theorem InOrder.length_before (order : o.InOrder) (hp : p ∈ o.checkpoints) :
    (o.before p).tokens.length = p.index :=
  List.length_take_of_le (order.index_le p hp)

theorem offset_le_of_mem_before (h : q ∈ (o.before p).checkpoints) : q.offset ≤ p.offset := by
  have upTo := List.mem_takeWhile_imp h
  exact of_decide_eq_true upTo

theorem length_behind (p q : Checkpoint) (o : Output) :
    (o.behind p q).tokens.length = o.tokens.length - p.index := by
  simp [behind]

theorem lt_of_mem_behind {r : Checkpoint} (h : r ∈ (o.behind p q).checkpoints) : q.offset < r.offset := by
  obtain ⟨s, hs, rfl⟩ := List.mem_map.mp h
  have above : p.offset < s.offset := of_decide_eq_true (List.mem_filter.mp hs).2
  show q.offset < s.offset - p.offset + q.offset
  omega

/-! ## Counterparts of checkpoints -/

/-- An old checkpoint as far behind the replaced text, which ends at `stop`, as `q` is behind the
inserted one, which ends at `inserted`, with an equal snapshot. -/
structure Counterpart (old : Output) (inserted stop : Nat) (q o : Checkpoint) : Prop where
  mem : o ∈ old.checkpoints
  behind : inserted ≤ q.offset
  offset : o.offset + inserted = q.offset + stop
  snapshot : o.snapshot = q.snapshot

section
variable {old : Output} {inserted stop : Nat} {n q o o' : Checkpoint}

theorem counterpart_of_rejoin? {x : Checkpoint × Checkpoint}
    (h : Document.rejoin? old inserted stop q = some x) : x.2 = q ∧ old.Counterpart inserted stop q x.1 := by
  obtain ⟨o, n⟩ := x
  obtain ⟨rfl, behind, mem, offset, snapshot⟩ := Document.rejoin?_eq_some h
  refine ⟨rfl, mem, behind, ?_, snapshot⟩
  show o.offset + inserted = n.offset + stop
  omega

theorem not_counterpart_of_rejoin? (h : Document.rejoin? old inserted stop q = none) (o : Checkpoint) :
    ¬ old.Counterpart inserted stop q o := by
  intro met
  have there : o.offset = q.offset - inserted + stop := by
    have := met.offset
    have := met.behind
    omega
  unfold Document.rejoin? checkpointLike? at h
  rw [if_neg (Nat.not_lt.mpr met.behind), Option.map_eq_none_iff, List.find?_eq_none] at h
  apply h o met.mem
  rw [there, met.snapshot, beq_self_eq_true, beq_self_eq_true, Bool.and_self]

theorem Counterpart.index_le (order : old.InOrder) (first : old.Counterpart inserted stop n o)
    (h : old.Counterpart inserted stop q o') (le : n.offset ≤ q.offset) : o.index ≤ o'.index := by
  have := first.offset
  have := h.offset
  by_cases same : o.offset = o'.offset
  · exact Nat.le_of_eq (congrArg Checkpoint.index (order.unique first.mem h.mem same))
  · apply order.indices o first.mem o' h.mem
    omega

theorem Counterpart.tokens (order : old.InOrder) (h : old.Counterpart inserted stop n o) :
    (old.behind o n).tokens.map (·.shift (· + stop)) =
      (old.tokens.drop o.index).map (·.shift (· + inserted)) := by
  have move {k : Nat} (le : o.offset ≤ k) : k - o.offset + n.offset + stop = k + inserted := by
    have := h.offset
    omega
  unfold Output.behind
  rw [List.map_map]
  apply List.map_congr_left
  intro l hl
  obtain ⟨start, stop⟩ := order.tokens o h.mem l hl
  simp only [Function.comp_apply, Lexeme.shift, Span.shift, move start, move stop]

end

/-! ## What is taken over -/

/-- The output `rest` that is taken over behind the new one: none where no new checkpoint has a
counterpart, else the old output from the first counterpart on. -/
inductive Rejoins (old : Output) (inserted stop : Nat) (new : Output) : Output → Prop
  | never : (∀ q ∈ new.checkpoints, ∀ o, ¬ old.Counterpart inserted stop q o) →
      Rejoins old inserted stop new {}
  | first {ps : List Checkpoint} {n o : Checkpoint} : new.checkpoints = ps ++ [n] →
      (∀ q ∈ ps, ∀ o, ¬ old.Counterpart inserted stop q o) → old.Counterpart inserted stop n o →
      Rejoins old inserted stop new (old.behind o n)

section
variable {old new rest : Output} {inserted stop : Nat}

theorem Rejoins.length_le (h : Rejoins old inserted stop new rest) :
    rest.tokens.length ≤ old.tokens.length := by
  cases h with
  | never => exact Nat.zero_le _
  | first => rw [length_behind]; exact Nat.sub_le _ _

theorem Rejoins.tokens (order : old.InOrder) (h : Rejoins old inserted stop new rest) :
    rest.tokens.map (·.shift (· + stop)) =
      (old.tokens.drop (old.tokens.length - rest.tokens.length)).map (·.shift (· + inserted)) := by
  cases h with
  | never =>
    rw [List.length_nil, Nat.sub_zero, List.drop_length]
    rfl
  | first _ _ met =>
    rw [length_behind, Nat.sub_sub_self (order.index_le _ met.mem)]
    exact met.tokens order

theorem Rejoins.reaches (order : old.InOrder) (h : Rejoins old inserted stop new rest) {q o : Checkpoint}
    (hq : q ∈ (new.append rest).checkpoints) (met : old.Counterpart inserted stop q o) :
    old.tokens.length - o.index ≤ rest.tokens.length := by
  cases h with
  | never none =>
    rw [append_empty] at hq
    exact absurd met (none q hq o)
  | @first ps n o' cps none found =>
    -- no new checkpoint before `n` has a counterpart, so what has one is `n` or is taken over behind it
    have le : n.offset ≤ q.offset := by
      rcases List.mem_append.mp hq with hq | hq
      · rw [cps, List.mem_append, List.mem_singleton] at hq
        rcases hq with hq | rfl
        · exact absurd met (none q hq o)
        · exact Nat.le_refl _
      · exact Nat.le_of_lt (lt_of_mem_behind hq)
    rw [length_behind]
    exact Nat.sub_le_sub_left (found.index_le order met le) _

end

end Output

namespace Document

open Output (LastUpTo Counterpart Rejoins)

theorem relex_parts (source : List Char) (cfg : Config) (old : Output) (inserted stop : Nat)
    (p : Checkpoint) :
    ∃ new rest, Rejoins old inserted stop new rest ∧
      relex source cfg old inserted stop p =
        (((old.before p).append new).append rest, ⟨p.index, new.tokens.length, rest.tokens.length⟩) := by
  have ends := Lexer.endsAt_run (i := p.index) (Lexer.at_resume_anywhere source cfg p.offset p.snapshot)
    (rejoin? old inserted stop)
  unfold relex
  generalize (Lexer.resume source cfg p.offset p.snapshot).run (rejoin? old inserted stop) p.index = r
    at ends ⊢
  obtain ⟨new, rejoined⟩ := r
  refine ⟨new, _, ?_, rfl⟩
  cases ends with
  | never none =>
    apply Rejoins.never
    intro q hq
    exact Output.not_counterpart_of_rejoin? (none q hq)
  | last cps none found =>
    obtain ⟨rfl, met⟩ := Output.counterpart_of_rejoin? found
    refine .first cps ?_ met
    intro q hq
    exact Output.not_counterpart_of_rejoin? (none q hq)

variable {cfg : Config} {doc next : Document} {start stop : Nat} {replacement : List Char}
  {counts : EditCounts}

theorem Exact.edit_eq_relex (h : doc.Exact cfg)
    (hok : doc.edit start stop replacement = .ok (next, counts)) :
    ∃ p, doc.output.LastUpTo start p ∧
      relex next.source cfg doc.output (start + byteLength replacement) stop p = (next.output, counts) := by
  obtain ⟨p, -, last, -⟩ := Output.lastCheckpoint?_tokenize doc.source cfg start
  rw [← h.output_eq] at last
  refine ⟨p, h.inOrder.lastUpTo last, ?_⟩
  rw [Document.edit] at hok
  cases hc : cut start stop doc.source with
  | error why => rw [hc] at hok; cases hok
  | ok parts =>
    simp only [hc, Except.map, last] at hok
    cases hok
    rw [show doc.config = cfg from congrArg Document.config h]

/-- The three counts of an edit make up the new tokens. Those kept are the old tokens before the last
old checkpoint that is not after the edit, and those reused are the last old ones, moved by as much as
the edit makes the source longer or shorter. No new checkpoint behind the edit has a counterpart from
which more old tokens could have been reused. -/
theorem counts_edit (source : List Char) (cfg : Config) (es : List Edit) (e : Edit) {next : Document}
    {counts : EditCounts}
    (h : ((ofSource source cfg).edited es).edit e.start e.stop e.replacement = .ok (next, counts)) :
    let old := ((ofSource source cfg).edited es).output
    let new := next.output
    let inserted := e.start + byteLength e.replacement
    counts.kept + counts.relexed + counts.reused = new.tokens.length ∧
    ∃ p, old.LastUpTo e.start p ∧
      counts.kept = p.index ∧ counts.kept ≤ old.tokens.length ∧
      new.tokens.take counts.kept = old.tokens.take counts.kept ∧
      counts.reused ≤ old.tokens.length ∧
      (new.tokens.drop (new.tokens.length - counts.reused)).map (·.shift (· + e.stop)) =
        (old.tokens.drop (old.tokens.length - counts.reused)).map (·.shift (· + inserted)) ∧
      ∀ q ∈ (tokenize next.source cfg).checkpoints, p.offset < q.offset → ∀ o,
        old.Counterpart inserted e.stop q o → old.tokens.length - o.index ≤ counts.reused := by
  intro old new inserted
  have exact : ((ofSource source cfg).edited es).Exact cfg := (exact_ofSource source cfg).edited es
  have order : old.InOrder := exact.inOrder
  have fresh : new = tokenize next.source cfg := (exact.next h).output_eq
  obtain ⟨p, last, relexed⟩ := exact.edit_eq_relex h
  obtain ⟨mid, rest, rejoins, parts⟩ := relex_parts next.source cfg old inserted e.stop p
  obtain ⟨out, rfl⟩ := Prod.mk.inj (relexed.symm.trans parts)
  have count := order.length_before last.mem
  have tokens : new.tokens = ((old.before p).tokens ++ mid.tokens) ++ rest.tokens :=
    congrArg Output.tokens out
  have total : p.index + mid.tokens.length + rest.tokens.length = new.tokens.length := by
    rw [tokens, List.length_append, List.length_append, count]
  refine ⟨total, p, last, rfl, order.index_le p last.mem, ?_, rejoins.length_le, ?_, ?_⟩
  · rw [tokens, List.append_assoc, List.take_left' count]
    rfl
  · rw [← rejoins.tokens order]
    congr 1
    rw [← total, Nat.add_sub_cancel, tokens]
    apply List.drop_left'
    rw [List.length_append, count]
  · intro q hq behind o met
    rw [← fresh, show new = _ from out, Output.append_assoc] at hq
    rcases List.mem_append.mp hq with hq | hq
    · -- what is kept ends at `p`
      exact absurd (Output.offset_le_of_mem_before hq) (Nat.not_le.mpr behind)
    · exact rejoins.reaches order hq met

theorem counts_edit_before_block :
    let doc := (ofSource "a\n\tb\nc\n\td\n".toList {}).edited [⟨0, 1, "zé".toList⟩, ⟨2, 3, []⟩]
    let next := ofSource "zé\n\tx\n\ty\nc\n\td\n".toList {}
    let q : Checkpoint := ⟨10, 8, [2, 0, 0, 0, 0, 1, 0, 0, 0, 1, 0]⟩
    let o : Checkpoint := ⟨7, 6, [2, 0, 0, 0, 0, 1, 0, 0, 0, 1, 0]⟩
    doc.edit 5 6 "x\n\ty".toList = .ok (next, ⟨3, 5, 8⟩) ∧ 3 + 5 + 8 = next.output.tokens.length ∧
      q ∈ (tokenize next.source {}).checkpoints ∧ doc.output.Counterpart 9 6 q o ∧
      doc.output.tokens.length - 6 ≤ 8 := by
  intro doc next q o
  have edited : doc.edit 5 6 "x\n\ty".toList = .ok (next, ⟨3, 5, 8⟩) := by
    have some : (doc.edit 5 6 "x\n\ty".toList).toOption = some (next, ⟨3, 5, 8⟩) := by decide +kernel
    cases he : doc.edit 5 6 "x\n\ty".toList with
    | error why => rw [he] at some; cases some
    | ok r => rw [he] at some; exact congrArg Except.ok (Option.some.inj some)
  have hq : q ∈ (tokenize next.source {}).checkpoints := by decide +kernel
  have met : doc.output.Counterpart 9 6 q o := ⟨by decide +kernel, by decide, rfl, rfl⟩
  obtain ⟨total, p, ⟨_, _, -, le, -⟩, -, -, -, -, -, stops⟩ :=
    counts_edit "a\n\tb\nc\n\td\n".toList {} [⟨0, 1, "zé".toList⟩, ⟨2, 3, []⟩]
      ⟨5, 6, "x\n\ty".toList⟩ edited
  have behind : p.offset < q.offset := Nat.lt_of_le_of_lt le (by decide)
  exact ⟨edited, total, hq, met, stops q hq behind o met⟩

end Document

end Offside
