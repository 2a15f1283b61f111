import Offside.Proofs.Relexing

/-!
# Editing with every index checked

`editChecked` finds checkpoints by their number in the output, as an editor that works in place
does. It gives up where a number is not in range or a difference falls below zero. On the output of
lexing it never does, and it comes to the same as `edit` (`editChecked_eq`): checkpoints stand in
order, and what is behind one of them is not before it in any respect (`Output.InOrder`).
-/

namespace Offside

/-! ## Checked operations -/

def sub? (a b : Nat) : Option Nat := if b ≤ a then some (a - b) else none

def take? {α : Type} (n : Nat) (l : List α) : Option (List α) :=
  if n ≤ l.length then some (l.take n) else none

def drop? {α : Type} (n : Nat) (l : List α) : Option (List α) :=
  if n ≤ l.length then some (l.drop n) else none

def lastIdx? {α : Type} (q : α → Bool) : List α → Option Nat
  | [] => none
  | a :: r => ((lastIdx? q r).map (· + 1)).or (if q a then some 0 else none)

theorem sub?_eq {a b : Nat} (h : b ≤ a) : sub? a b = some (a - b) := if_pos h

theorem take?_eq {α : Type} {n : Nat} {l : List α} (h : n ≤ l.length) : take? n l = some (l.take n) :=
  if_pos h

theorem drop?_eq {α : Type} {n : Nat} {l : List α} (h : n ≤ l.length) : drop? n l = some (l.drop n) :=
  if_pos h

theorem mapM_eq_map {α β : Type} {f : α → Option β} {g : α → β} : ∀ {l : List α},
    (∀ a ∈ l, f a = some (g a)) → l.mapM f = some (l.map g)
  | [], _ => rfl
  | a :: l, h => by
    rw [List.mapM_cons, h a List.mem_cons_self, mapM_eq_map fun b hb => h b (List.mem_cons_of_mem a hb)]
    rfl

theorem lastIdx?_eq_none {α : Type} {q : α → Bool} : ∀ {l : List α}, (∀ a ∈ l, q a = false) →
    lastIdx? q l = none
  | [], _ => rfl
  | a :: l, h => by
    rw [lastIdx?, lastIdx?_eq_none fun b hb => h b (List.mem_cons_of_mem a hb), h a List.mem_cons_self]
    rfl

theorem lastIdx?_append {α : Type} {q : α → Bool} {a : α} {r : List α} (ha : q a = true)
    (hr : ∀ b ∈ r, q b = false) : ∀ l : List α, lastIdx? q (l ++ a :: r) = some l.length
  | [] => by rw [List.nil_append, lastIdx?, lastIdx?_eq_none hr, ha]; rfl
  | b :: l => by rw [List.cons_append, lastIdx?, lastIdx?_append ha hr l]; rfl

/-! ## Editing -/

namespace Output

/-- The number of the checkpoint at an offset, if it has the given snapshot. The answer is
`some none` if the number that was found is not in range. -/
def checkpointIdx? (offset : Nat) (snapshot : List UInt8) (o : Output) : Option (Option Nat) :=
  match o.checkpoints.findIdx? (·.offset == offset) with
  | none => none
  | some i =>
    match o.checkpoints[i]? with
    | none => some none
    | some p => if p.snapshot = snapshot then some (some i) else none

def behindChecked (i : Nat) (o x : Output) : Option Output := do
  let p ← o.checkpoints[i]?
  let stop := (x.checkpoints.getLast?.map (·.offset)).getD 0
  let move (n : Nat) : Option Nat := (sub? n p.offset).map (· + stop)
  let tokens ← (← drop? p.index o.tokens).mapM fun l => do
    return { l with span := ⟨← move l.span.start, ← move l.span.stop⟩ }
  let diagnostics ← (o.diagnostics.filter (p.offset ≤ ·.offset)).mapM fun d => do
    return { d with offset := ← move d.offset }
  let checkpoints ← (← drop? (i + 1) o.checkpoints).mapM fun r => do
    return { r with offset := ← move r.offset, index := (← sub? r.index p.index) + x.tokens.length }
  return { tokens, diagnostics, checkpoints }

end Output

namespace Document

def rejoinIdx? (old : Output) (inserted stop : Nat) (p : Checkpoint) : Option (Option Nat) :=
  if p.offset < inserted then none
  else
    match sub? p.offset inserted with
    | none => some none
    | some there => old.checkpointIdx? (there + stop) p.snapshot

def relexChecked (source : List Char) (config : Config) (old : Output) (inserted stop i : Nat) :
    Option (Output × EditCounts) := do
  let p ← old.checkpoints[i]?
  let tokens ← take? p.index old.tokens
  let checkpoints ← take? (i + 1) old.checkpoints
  let kept : Output :=
    { tokens, diagnostics := old.diagnostics.filter (·.offset < p.offset), checkpoints }
  let (new, rejoined) := (Lexer.resume source config p.offset p.snapshot).run
    (rejoinIdx? old inserted stop) p.index
  let output := kept.append new
  let relexed ← sub? output.tokens.length p.index
  match rejoined with
  | none => return (output, ⟨p.index, relexed, 0⟩)
  | some none => none
  | some (some j) =>
    let o ← old.checkpoints[j]?
    let reused ← sub? old.tokens.length o.index
    return (output.append (← old.behindChecked j output), ⟨p.index, relexed, reused⟩)

def editChecked (start stop : Nat) (replacement : List Char) (doc : Document) :
    Option (Except EditError (Document × EditCounts)) :=
  match cut start stop doc.source with
  | .error e => some (.error e)
  | .ok (before, behind) => do
    let replaced ← sub? stop start
    let _room ← sub? (byteLength doc.source) replaced
    let source := before ++ replacement ++ behind
    let (output, counts) ← match lastIdx? (·.offset ≤ start) doc.output.checkpoints with
      | some i => relexChecked source doc.config doc.output (start + byteLength replacement) stop i
      | none =>
        let output := tokenize source doc.config
        some (output, ⟨0, output.tokens.length, 0⟩)
    return .ok ({ doc with source, output }, counts)

end Document

/-! ## Output in order -/

namespace Output

/-- Checkpoints stand in order, and what is counted behind one of them does not start before it. -/
structure InOrder (o : Output) : Prop where
  ordered : o.checkpoints.Pairwise (·.offset < ·.offset)
  index_le : ∀ p ∈ o.checkpoints, p.index ≤ o.tokens.length
  tokens : ∀ p ∈ o.checkpoints, ∀ l ∈ o.tokens.drop p.index,
    p.offset ≤ l.span.start ∧ p.offset ≤ l.span.stop
  indices : ∀ p ∈ o.checkpoints, ∀ r ∈ o.checkpoints, p.offset < r.offset → p.index ≤ r.index

theorem ordered_tokenize (source : List Char) (cfg : Config) :
    (tokenize source cfg).checkpoints.Pairwise (·.offset < ·.offset) := by
  obtain ⟨b, leads⟩ := leads_strides cfg (.start cfg source)
  have within := within_ofStrides leads 0 0
  rw [tokenize_eq]
  exact List.pairwise_cons.mpr ⟨fun p hp => (within.checkpoints p hp).1, within.ordered⟩

theorem inOrder_tokenize (source : List Char) (cfg : Config) : (tokenize source cfg).InOrder := by
  have cut {p : Checkpoint} (hp : p ∈ (tokenize source cfg).checkpoints) : ∃ x y stop,
      tokenize source cfg = x.append y ∧ CutAt p.offset p.index x y ∧ y.Within p.offset stop ∧
        ∀ r ∈ y.checkpoints, p.index ≤ r.index := by
    obtain ⟨ms, b, leads, -, -, rfl⟩ := leads_of_checkpoint hp
    obtain ⟨c, onward⟩ := leads_strides cfg b
    refine ⟨_, _, _, tokenize_of_leads leads, cutAt_of_leads leads, within_ofStrides onward _ _, ?_⟩
    intro r hr
    obtain ⟨_, _, _, -, -, -, rfl⟩ := split_of_mem_checkpoints hr
    exact Nat.le_add_right _ _
  refine ⟨ordered_tokenize source cfg, fun p hp => ?_, fun p hp l hl => ?_, fun p hp r hr lt => ?_⟩
  · obtain ⟨x, y, _, e, hc, -⟩ := cut hp
    rw [e, append, List.length_append, hc.tokens]
    exact Nat.le_add_right _ _
  · obtain ⟨x, y, _, e, hc, within, -⟩ := cut hp
    rw [e, append, List.drop_left' hc.tokens] at hl
    have := within.tokens l hl
    omega
  · obtain ⟨x, y, _, e, hc, -, le⟩ := cut hp
    rw [e] at hr
    rcases List.mem_append.mp hr with hr | hr
    · exact absurd (hc.checkpoints.1 r hr) (Nat.not_le.mpr lt)
    · exact le r hr

section
variable {cps : List Checkpoint} {i : Nat} {p : Checkpoint}

theorem split_at (h : cps.Pairwise (·.offset < ·.offset)) (hp : cps[i]? = some p) :
    cps = cps.take i ++ p :: cps.drop (i + 1) ∧ (∀ q ∈ cps.take i, q.offset < p.offset) ∧
      ∀ q ∈ cps.drop (i + 1), p.offset < q.offset := by
  obtain ⟨lt, rfl⟩ := List.getElem?_eq_some_iff.mp hp
  have parts : cps = cps.take i ++ cps[i] :: cps.drop (i + 1) := by
    rw [← List.drop_eq_getElem_cons lt, List.take_append_drop]
  rw [parts] at h
  obtain ⟨-, tail, cross⟩ := List.pairwise_append.mp h
  exact ⟨parts, fun q hq => cross q hq _ List.mem_cons_self, (List.pairwise_cons.mp tail).1⟩

theorem take_succ_eq (h : cps.Pairwise (·.offset < ·.offset)) (hp : cps[i]? = some p) :
    cps.take (i + 1) = cps.takeWhile (·.offset ≤ p.offset) := by
  obtain ⟨-, low, high⟩ := split_at h hp
  conv => rhs; rw [← List.take_append_drop (i + 1) cps]
  rw [takeWhile_append_left]
  · intro q hq
    rw [List.take_add_one, hp, List.mem_append] at hq
    rcases hq with hq | hq
    · exact decide_eq_true (Nat.le_of_lt (low q hq))
    · rw [List.mem_singleton.mp hq]; exact decide_eq_true (Nat.le_refl _)
  · exact fun q hq => decide_eq_false (Nat.not_le.mpr (high q hq))

theorem drop_succ_eq (h : cps.Pairwise (·.offset < ·.offset)) (hp : cps[i]? = some p) :
    cps.drop (i + 1) = cps.filter (p.offset < ·.offset) := by
  obtain ⟨-, low, high⟩ := split_at h hp
  conv => rhs; rw [← List.take_append_drop (i + 1) cps]
  rw [filter_append_right]
  · intro q hq
    rw [List.take_add_one, hp, List.mem_append] at hq
    rcases hq with hq | hq
    · exact decide_eq_false (Nat.lt_asymm (low q hq))
    · rw [List.mem_singleton.mp hq]; exact decide_eq_false (Nat.lt_irrefl _)
  · exact fun q hq => decide_eq_true (high q hq)

end

def Numbers (o : Output) : Option Nat → Option Checkpoint → Prop
  | some i, some p => o.checkpoints[i]? = some p
  | none, none => True
  | _, _ => False

theorem Numbers.cases {o : Output} : ∀ {i? : Option Nat} {p? : Option Checkpoint}, o.Numbers i? p? →
    i? = none ∧ p? = none ∨ ∃ i p, i? = some i ∧ p? = some p ∧ o.checkpoints[i]? = some p
  | none, none, _ => .inl ⟨rfl, rfl⟩
  | some i, some p, h => .inr ⟨i, p, rfl, rfl, h⟩

variable {o : Output}

theorem InOrder.unique (h : o.InOrder) {p q : Checkpoint} (hp : p ∈ o.checkpoints)
    (hq : q ∈ o.checkpoints) (e : p.offset = q.offset) : p = q := by
  obtain ⟨i, hi⟩ := List.getElem?_of_mem hq
  obtain ⟨parts, low, high⟩ := split_at h.ordered hi
  rw [parts, List.mem_append, List.mem_cons] at hp
  rcases hp with hp | rfl | hp
  · have := low p hp; omega
  · rfl
  · have := high p hp; omega

theorem InOrder.lt_of_mem_dropWhile (h : o.InOrder) {offset : Nat} {q : Checkpoint}
    (hq : q ∈ o.checkpoints.dropWhile (·.offset ≤ offset)) : offset < q.offset := by
  have ordered := h.ordered.sublist (List.dropWhile_sublist (·.offset ≤ offset))
  have first := List.head?_dropWhile_not (fun p : Checkpoint => decide (p.offset ≤ offset)) o.checkpoints
  cases hd : o.checkpoints.dropWhile (·.offset ≤ offset) with
  | nil => rw [hd] at hq; cases hq
  | cons p r =>
    rw [hd] at hq ordered first
    have above : offset < p.offset := by simpa using first
    rcases List.mem_cons.mp hq with rfl | hq
    · exact above
    · exact Nat.lt_trans above ((List.pairwise_cons.mp ordered).1 q hq)

theorem numbers_lastIdx? (h : o.InOrder) (offset : Nat) :
    o.Numbers (lastIdx? (·.offset ≤ offset) o.checkpoints) (o.lastCheckpoint? offset) := by
  have parts : o.checkpoints = o.checkpoints.takeWhile (·.offset ≤ offset) ++
      o.checkpoints.dropWhile (·.offset ≤ offset) := List.takeWhile_append_dropWhile.symm
  have above : ∀ q ∈ o.checkpoints.dropWhile (·.offset ≤ offset), decide (q.offset ≤ offset) = false :=
    fun q hq => decide_eq_false (Nat.not_le.mpr (h.lt_of_mem_dropWhile hq))
  unfold lastCheckpoint?
  rcases List.eq_nil_or_concat (o.checkpoints.takeWhile (·.offset ≤ offset)) with none | ⟨ps, p, some⟩
  · rw [none, List.nil_append] at parts
    rw [none, parts, lastIdx?_eq_none above]
    trivial
  · rw [List.concat_eq_append] at some
    have hp : decide (p.offset ≤ offset) = true :=
      List.all_eq_true.mp List.all_takeWhile p (some ▸ List.mem_append_right ps (List.mem_singleton_self p))
    rw [some, List.append_assoc, List.singleton_append] at parts
    rw [some, List.getLast?_concat, parts,
      lastIdx?_append (q := fun r : Checkpoint => decide (r.offset ≤ offset)) hp above]
    show o.checkpoints[ps.length]? = Option.some p
    rw [parts, List.getElem?_append_right (Nat.le_refl _), Nat.sub_self]
    rfl

theorem numbers_checkpointIdx? (h : o.InOrder) (offset : Nat) (snapshot : List UInt8) :
    ∃ i?, o.checkpointIdx? offset snapshot = i?.map some ∧
      o.Numbers i? (o.checkpointLike? offset snapshot) := by
  unfold checkpointIdx? checkpointLike?
  cases hi : o.checkpoints.findIdx? (·.offset == offset) with
  | none =>
    have none : o.checkpoints.find? (fun p => p.offset == offset && p.snapshot == snapshot) = none := by
      rw [List.find?_eq_none]
      intro p hp
      simp [List.findIdx?_eq_none_iff.mp hi p hp]
    rw [none]
    exact ⟨Option.none, rfl, trivial⟩
  | some i =>
    obtain ⟨lt, found, -⟩ := List.findIdx?_eq_some_iff_getElem.mp hi
    have there : o.checkpoints[i]? = some o.checkpoints[i] := List.getElem?_eq_getElem lt
    have same {q : Checkpoint} (hq : q ∈ o.checkpoints) (e : q.offset = offset) :
        q = o.checkpoints[i] := h.unique hq (List.getElem_mem lt) (e.trans (beq_iff_eq.mp found).symm)
    simp only [there]
    cases hq : o.checkpoints.find? (fun p => p.offset == offset && p.snapshot == snapshot) with
    | none =>
      have ne : o.checkpoints[i].snapshot ≠ snapshot := fun e =>
        List.find?_eq_none.mp hq _ (List.getElem_mem lt) (by simp [beq_iff_eq.mp found, e])
      rw [if_neg ne]
      exact ⟨Option.none, rfl, trivial⟩
    | some q =>
      have sat := List.find?_some hq
      simp only [Bool.and_eq_true, beq_iff_eq] at sat
      obtain rfl := same (List.mem_of_find?_eq_some hq) sat.1
      rw [if_pos sat.2]
      exact ⟨Option.some i, rfl, there⟩

theorem behindChecked_eq (h : o.InOrder) {i : Nat} {p q : Checkpoint} {x : Output}
    (hp : o.checkpoints[i]? = some p) (stop : x.checkpoints.getLast?.map (·.offset) = some q.offset)
    (count : x.tokens.length = q.index) : o.behindChecked i x = some (o.behind p q) := by
  have hm := List.mem_of_getElem? hp
  have move {n : Nat} (le : p.offset ≤ n) :
      (sub? n p.offset).map (· + q.offset) = some (n - p.offset + q.offset) := by rw [sub?_eq le]; rfl
  have lt : i < o.checkpoints.length := (List.getElem?_eq_some_iff.mp hp).1
  unfold behindChecked
  simp only [hp, stop, count, Option.getD_some, Option.bind_eq_bind, Option.bind_some,
    drop?_eq (h.index_le p hm), drop?_eq lt, drop_succ_eq h.ordered hp]
  rw [mapM_eq_map (g := fun l => l.shift fun n => n - p.offset + q.offset),
    mapM_eq_map (g := fun d => d.shift fun n => n - p.offset + q.offset),
    mapM_eq_map (g := fun r : Checkpoint => { r with
      offset := r.offset - p.offset + q.offset, index := r.index - p.index + q.index })]
  · rfl
  · intro r hr
    obtain ⟨hr, lt⟩ := List.mem_filter.mp hr
    have lt : p.offset < r.offset := of_decide_eq_true lt
    simp only [move (Nat.le_of_lt lt), sub?_eq (h.indices p hm r hr lt)]
    rfl
  · intro d hd
    have le : p.offset ≤ d.offset := of_decide_eq_true (List.mem_filter.mp hd).2
    simp only [move le]
    rfl
  · intro l hl
    obtain ⟨start, stop⟩ := h.tokens p hm l hl
    simp only [move start, move stop]
    rfl

end Output

/-! ## The two ways to edit -/

namespace Lexer

section
variable {α : Type} {f : Checkpoint → Option α} {i : Nat} {lx next : Lexer}

theorem run_of_done (h : lx.step = (.done, next)) : lx.run f i = ({}, none) := by
  rw [run]; grind

theorem run_of_refused {d : Diagnostic} (h : lx.step = (.refused d, next)) :
    lx.run f i = ((next.run f i).1.addDiagnostic d, (next.run f i).2) := by
  rw [run]; grind

theorem run_of_token {l : Lexeme} (h : lx.step = (.token l, next)) :
    lx.run f i = match next.checkpointAfter? l (i + 1) with
      | none => ((next.run f (i + 1)).1.addToken l, (next.run f (i + 1)).2)
      | some p => match f p with
        | some a => ({ tokens := [l], checkpoints := [p] }, some a)
        | none => (((next.run f (i + 1)).1.addCheckpoint p).addToken l, (next.run f (i + 1)).2) := by
  rw [run]; grind

end

theorem index_of_checkpointAfter? {lx : Lexer} {l : Lexeme} {k : Nat} {p : Checkpoint}
    (h : lx.checkpointAfter? l k = some p) : p.index = k := by
  unfold checkpointAfter? at h
  split at h
  · rw [(checkpoint?_eq_some_iff.mp h).2]
  · cases h

/-- How two runs end that stop at the same checkpoints: without an answer, or at the last
checkpoint of the output. -/
def EndAlike {α β : Type} (f : Checkpoint → Option α) (g : Checkpoint → Option β) (i : Nat) (out : Output) :
    Option α → Option β → Prop
  | none, none => True
  | some x, some y => ∃ p, out.checkpoints.getLast? = some p ∧ p.index = i + out.tokens.length ∧
      f p = some x ∧ g p = some y
  | _, _ => False

theorem EndAlike.before {α β : Type} {f : Checkpoint → Option α} {g : Checkpoint → Option β} {i k : Nat}
    {out all : Output} {x : Option α} {y : Option β} (h : EndAlike f g k out x y)
    (last : ∀ p, out.checkpoints.getLast? = some p → all.checkpoints.getLast? = some p)
    (count : i + all.tokens.length = k + out.tokens.length) : EndAlike f g i all x y := by
  cases x with
  | none =>
    cases y with
    | none => trivial
    | some y => exact h
  | some x =>
    cases y with
    | none => exact h
    | some y =>
      obtain ⟨p, hp, index, hx, hy⟩ := h
      exact ⟨p, last p hp, index.trans count.symm, hx, hy⟩

/-- What a run gives does not depend on what its answers are, only on where it has one. -/
theorem run_alike {α β : Type} {f : Checkpoint → Option α} {g : Checkpoint → Option β}
    (h : ∀ p, (f p).isSome = (g p).isSome) (i : Nat) (lx : Lexer) :
    (lx.run g i).1 = (lx.run f i).1 ∧
      EndAlike f g i (lx.run f i).1 (lx.run f i).2 (lx.run g i).2 := by
  fun_induction Lexer.run f i lx with
  | case1 i lx next step =>
    rw [run_of_done step]
    exact ⟨rfl, trivial⟩
  | case2 i lx d next step out x hrun ih =>
    rw [hrun] at ih
    rw [run_of_refused step]
    exact ⟨congrArg (·.addDiagnostic d) ih.1, ih.2⟩
  | case3 i lx l next step hcp out x hrun ih =>
    rw [hrun] at ih
    rw [run_of_token step, hcp]
    refine ⟨congrArg (·.addToken l) ih.1, ih.2.before (fun p hp => hp) ?_⟩
    simp only [Output.addToken, List.length_cons]
    omega
  | case4 i lx l next step p hcp x hx =>
    rw [run_of_token step, hcp]
    obtain ⟨y, hy⟩ := Option.isSome_iff_exists.mp ((h p).symm.trans (by rw [hx]; rfl))
    simp only [hy]
    exact ⟨trivial, p, rfl, index_of_checkpointAfter? hcp, hx, hy⟩
  | case5 i lx l next step p hcp hx out x hrun ih =>
    rw [hrun] at ih
    have hy : g p = none := Option.isNone_iff_eq_none.mp (by
      have := h p; rw [hx] at this; simpa using this)
    rw [run_of_token step, hcp]
    simp only [hy]
    refine ⟨congrArg (fun o => (Output.addCheckpoint p o).addToken l) ih.1, ih.2.before (fun q hq => ?_) ?_⟩
    · show (p :: out.checkpoints).getLast? = some q
      rw [List.getLast?_cons, show out.checkpoints.getLast? = some q from hq]
      rfl
    · simp only [Output.addToken, Output.addCheckpoint, List.length_cons]
      omega

end Lexer

namespace Document

theorem numbers_rejoinIdx? {old : Output} (h : old.InOrder) (inserted stop : Nat) (p : Checkpoint) :
    (∃ i?, rejoinIdx? old inserted stop p = i?.map some ∧
      old.Numbers i? ((rejoin? old inserted stop p).map (·.1))) ∧
      ∀ o n, rejoin? old inserted stop p = some (o, n) → n = p := by
  unfold rejoinIdx? rejoin?
  split
  · exact ⟨⟨none, rfl, trivial⟩, nofun⟩
  · next le =>
    have numbers := Output.numbers_checkpointIdx? h (p.offset - inserted + stop) p.snapshot
    simp only [sub?_eq (Nat.le_of_not_lt le)]
    refine ⟨by simpa [Option.map_map, Function.comp_def] using numbers, fun o n e => ?_⟩
    obtain ⟨_, -, e⟩ := Option.map_eq_some_iff.mp e
    cases e; rfl

theorem isSome_rejoin? {old : Output} (h : old.InOrder) (inserted stop : Nat) (p : Checkpoint) :
    (rejoin? old inserted stop p).isSome = (rejoinIdx? old inserted stop p).isSome := by
  obtain ⟨i?, hi, numbers⟩ := (numbers_rejoinIdx? h inserted stop p).1
  rcases numbers.cases with ⟨rfl, hr⟩ | ⟨i, o, rfl, hr, -⟩
  · rw [hi, Option.map_eq_none_iff.mp hr]; rfl
  · obtain ⟨_, hr, -⟩ := Option.map_eq_some_iff.mp hr
    rw [hi, hr]; rfl

theorem rejoinIdx?_eq_some {old : Output} {inserted stop : Nat} {p o n : Checkpoint} {i? : Option Nat}
    (h : old.InOrder) (there : rejoin? old inserted stop p = some (o, n))
    (number : rejoinIdx? old inserted stop p = some i?) :
    n = p ∧ ∃ i, i? = some i ∧ old.checkpoints[i]? = some o := by
  obtain ⟨⟨j?, hj, numbers⟩, named⟩ := numbers_rejoinIdx? h inserted stop p
  refine ⟨named o n there, ?_⟩
  rw [there] at numbers
  rcases numbers.cases with ⟨-, bad⟩ | ⟨j, o', rfl, e, ho⟩
  · cases bad
  · cases e
    exact ⟨j, Option.some.inj (number.symm.trans hj), ho⟩

theorem relexChecked_eq {source : List Char} {cfg : Config} {old : Output} {inserted stop i : Nat}
    {p : Checkpoint} (h : old.InOrder) (hp : old.checkpoints[i]? = some p) :
    relexChecked source cfg old inserted stop i = some (relex source cfg old inserted stop p) := by
  have hm := List.mem_of_getElem? hp
  have lt : i < old.checkpoints.length := (List.getElem?_eq_some_iff.mp hp).1
  obtain ⟨same, ends⟩ := Lexer.run_alike (isSome_rejoin? h inserted stop) p.index
    (Lexer.resume source cfg p.offset p.snapshot)
  unfold relexChecked relex
  simp only [hp, take?_eq (h.index_le p hm), take?_eq (Nat.succ_le_of_lt lt), Output.take_succ_eq h.ordered hp,
    Option.bind_eq_bind, Option.bind_some, same]
  revert ends
  generalize (Lexer.run (rejoin? old inserted stop) p.index (Lexer.resume source cfg p.offset p.snapshot)) = r
  generalize (Lexer.run (rejoinIdx? old inserted stop) p.index
    (Lexer.resume source cfg p.offset p.snapshot)).2 = y
  obtain ⟨out, x⟩ := r
  intro ends
  have count : ((old.before p).append out).tokens.length = p.index + out.tokens.length := by
    rw [Output.append, List.length_append, Output.before, List.length_take, Nat.min_eq_left (h.index_le p hm)]
  change (sub? ((old.before p).append out).tokens.length p.index).bind _ = _
  rw [count, sub?_eq (Nat.le_add_right _ _), Nat.add_sub_cancel_left, Option.bind_some]
  -- the runs stop alike, so either both reach the end or both find the same old checkpoint
  cases x with
  | none =>
    cases y with
    | none => rw [Output.append_empty]; rfl
    | some y => exact ends.elim
  | some x =>
    cases y with
    | none => exact ends.elim
    | some y =>
      obtain ⟨q, last, index, hx, hy⟩ := ends
      obtain ⟨o, n⟩ := x
      obtain ⟨rfl, j, rfl, ho⟩ := rejoinIdx?_eq_some h hx hy
      have le := h.index_le o (List.mem_of_getElem? ho)
      have behind : old.behindChecked j ((old.before p).append out) = some (old.behind o n) := by
        refine Output.behindChecked_eq h ho ?_ (by rw [count, index])
        rw [Output.append, List.getLast?_append, last]
        rfl
      have reused : (old.behind o n).tokens.length = old.tokens.length - o.index := by
        rw [Output.behind, List.length_map, List.length_drop]
      change (old.checkpoints[j]?.bind fun o => (sub? old.tokens.length o.index).bind fun reused =>
        (old.behindChecked j ((old.before p).append out)).bind _) = _
      rw [ho, Option.bind_some, sub?_eq le, Option.bind_some, behind, Option.bind_some, ← reused]
      rfl

theorem editChecked_eq {doc : Document} (h : doc.output.InOrder) (start stop : Nat)
    (replacement : List Char) :
    doc.editChecked start stop replacement = some (doc.edit start stop replacement) := by
  unfold editChecked edit
  cases hc : cut start stop doc.source with
  | error e => rfl
  | ok parts =>
    obtain ⟨before, behind⟩ := parts
    obtain ⟨replaced, split, rfl, rfl⟩ := cut_eq_ok_iff.mp hc
    have numbers := Output.numbers_lastIdx? h (byteLength before)
    have wide : byteLength before ≤ byteLength (before ++ replaced) := by
      rw [byteLength_append]; exact Nat.le_add_right _ _
    have room : byteLength (before ++ replaced) - byteLength before ≤ byteLength doc.source := by
      simp only [split, byteLength_append]; omega
    simp only [Except.map, sub?_eq wide, sub?_eq room, Option.bind_eq_bind, Option.bind_some]
    rcases numbers.cases with ⟨hi, hp⟩ | ⟨i, p, hi, hp, there⟩
    · rw [hi, hp]; rfl
    · simp only [hi, hp, relexChecked_eq h there]
      rfl

end Document

end Offside
