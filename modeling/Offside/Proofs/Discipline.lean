import Offside.Proofs.Snapshots

/-!
# Open levels under any use

A scanner may be asked for any kinds at any place of any text, in any order, and its state may be
replaced by what any bytes stand for. Its levels stay valid through all of it (`State.Kept`), and
what a call does to them is told by what it decides alone (`Stack.Follows`). So the levels that are
open can be counted off the kinds a scanner has produced (`stack_discipline`).
-/

namespace Offside

/-! ## Using a scanner -/

inductive Call where
  | tryScan (valid : KindSet) (c : Cursor)
  | scan (valid : KindSet) (c : Cursor)
  | restore (bytes : List UInt8)
  | reset

namespace Call

def scans : Call → Bool
  | tryScan .. | scan .. => true
  | restore _ | reset => false

def apply (cfg : Config) (s : State) : Call → Verdict × State
  | tryScan valid c => ((Offside.tryScan cfg valid s c).verdict, (Offside.tryScan cfg valid s c).state)
  | scan valid c =>
    match Offside.scan cfg valid s c with
    | (some kind, t, _) => (.produced kind, t)
    | (none, t, _) => (.nothing, t)
  | restore bytes => (.nothing, Snapshot.restore cfg.maxDepth bytes)
  | reset => (.nothing, .initial cfg.maxDepth)

def after (cfg : Config) (s : State) : List Call → State
  | [] => s
  | call :: calls => after cfg (call.apply cfg s).2 calls

def verdicts (cfg : Config) (s : State) : List Call → List Verdict
  | [] => []
  | call :: calls => (call.apply cfg s).1 :: verdicts cfg (call.apply cfg s).2 calls

end Call

/-! ## Levels that stay valid -/

/-- What holds of every state that a scanner of the variant is put into. Restored levels may be more
than the variant has room for. -/
structure State.Kept (cfg : Config) (s : State) : Prop where
  valid : s.stack.Valid
  room : max cfg.maxDepth 1 ≤ s.stack.capacity

section
variable {cfg : Config} {s : State}

theorem kept_initial (cfg : Config) : (State.initial cfg.maxDepth).Kept cfg :=
  ⟨Stack.valid_ofCapacity _, Nat.le_refl _⟩

theorem opens_tryScan (cfg : Config) (valid : KindSet) (s : State) (c : Cursor) :
    Scan.Opens s.stack (tryScan cfg valid s c).state.stack (tryScan cfg valid s c).verdict := by
  obtain ⟨verdict, state⟩ := Scan.tryScan_eq_reading cfg valid s c
  rw [verdict, state]
  exact Scan.opens_reading cfg valid ⟨s, c.rest⟩

/-- A refusal changes the levels as little as nothing does. -/
theorem opens_scan (cfg : Config) (valid : KindSet) (s : State) (c : Cursor) :
    Scan.Opens s.stack ((Call.scan valid c).apply cfg s).2.stack ((Call.scan valid c).apply cfg s).1 := by
  have opens := opens_tryScan cfg valid s c
  simp only [Call.apply, scan]
  generalize tryScan cfg valid s c = o at opens
  obtain ⟨v, t, d⟩ := o
  cases v <;> exact opens

theorem opens_apply {call : Call} (h : call.scans = true) (cfg : Config) (s : State) :
    Scan.Opens s.stack (call.apply cfg s).2.stack (call.apply cfg s).1 := by
  cases call with
  | tryScan valid c => exact opens_tryScan cfg valid s c
  | scan valid c => exact opens_scan cfg valid s c
  | restore | reset => cases h

theorem State.Kept.apply (h : s.Kept cfg) (call : Call) : (call.apply cfg s).2.Kept cfg := by
  cases call with
  | tryScan valid c =>
    obtain ⟨valid, capacity⟩ := (opens_tryScan cfg valid s c).valid h.valid
    exact ⟨valid, capacity ▸ h.room⟩
  | scan valid c =>
    obtain ⟨valid, capacity⟩ := (opens_scan cfg valid s c).valid h.valid
    exact ⟨valid, capacity ▸ h.room⟩
  | restore bytes =>
    obtain ⟨valid, room⟩ := Snapshot.restore_valid cfg.maxDepth bytes
    exact ⟨valid, room⟩
  | reset => exact kept_initial cfg

theorem State.Kept.after (calls : List Call) (h : s.Kept cfg) : (Call.after cfg s calls).Kept cfg := by
  induction calls generalizing s with
  | nil => exact h
  | cons call calls ih => exact ih (h.apply call)

theorem ne_notDeeper (cfg : Config) (valid : KindSet) (s : State) (c : Cursor) (depth top : Nat) :
    (tryScan cfg valid s c).verdict ≠ .refused (.notDeeper depth top) := by
  intro h
  rw [(Scan.tryScan_eq_reading cfg valid s c).1] at h
  obtain ⟨d, -, deeper, pushed, -⟩ := Scan.reading_of_refused h
  rw [Stack.push, if_neg (Nat.not_le.mpr deeper)] at pushed
  split at pushed <;> cases pushed

end

/-! ## What a verdict says of the levels -/

/-- How the levels `t` come from the levels `s` when a scanner decides on something. -/
def Stack.Follows (s t : Stack) : Verdict → Prop
  | .produced .indentOpen =>
    t.capacity = s.capacity ∧ ∃ depth, s.top < depth ∧ t.levels = s.levels ++ [depth]
  | .produced .indentClose => t.capacity = s.capacity ∧ s.levels = t.levels ++ [s.top]
  | _ => t = s

theorem Stack.exists_opened {s : Stack} (h : s.isBase = false) :
    ∃ d r, s.opened = d :: r ∧ s.pop.opened = r ∧ s.levels = s.pop.levels ++ [s.top] := by
  obtain ⟨opened, capacity⟩ := s
  cases opened with
  | nil => cases h
  | cons d r => exact ⟨d, r, rfl, rfl, by simp [Stack.levels, Stack.pop, Stack.top]⟩

theorem Scan.Opens.follows {s t : Stack} {v : Verdict} (h : Opens s t v) : s.Follows t v := by
  cases v with
  | produced k =>
    cases k with
    | indentOpen =>
      obtain ⟨d, -, hp⟩ := h
      obtain ⟨deeper, -, rfl⟩ := Stack.push_eq_ok hp
      exact ⟨rfl, d, deeper, by simp [Stack.levels]⟩
    | indentClose =>
      obtain ⟨base, rfl⟩ := h
      obtain ⟨_, _, -, -, levels⟩ := Stack.exists_opened base
      exact ⟨rfl, levels⟩
    | lineBreak | sameLevel | comment => exact h
  | refused | nothing => exact h

theorem Scan.Opens.length {s t : Stack} {v : Verdict} (h : Opens s t v) :
    t.opened.length + (if v = .produced .indentClose then 1 else 0) =
      s.opened.length + (if v = .produced .indentOpen then 1 else 0) := by
  cases v with
  | produced k =>
    cases k with
    | indentOpen =>
      obtain ⟨d, -, hp⟩ := h
      rw [(Stack.push_eq_ok hp).2.2]
      rfl
    | indentClose =>
      obtain ⟨base, rfl⟩ := h
      obtain ⟨_, _, opened, popped, -⟩ := Stack.exists_opened base
      rw [opened, popped]
      rfl
    | lineBreak | sameLevel | comment =>
      obtain rfl : t = s := h
      rfl
  | refused | nothing =>
    obtain rfl : t = s := h
    rfl

theorem length_opened_after (cfg : Config) (calls : List Call) (s : State)
    (h : ∀ call ∈ calls, call.scans = true) :
    (Call.after cfg s calls).stack.opened.length +
        (Call.verdicts cfg s calls).count (.produced .indentClose) =
      s.stack.opened.length + (Call.verdicts cfg s calls).count (.produced .indentOpen) := by
  induction calls generalizing s with
  | nil => rfl
  | cons call calls ih =>
    have first := (opens_apply (h call List.mem_cons_self) cfg s).length
    have rest := ih (call.apply cfg s).2 fun c hc => h c (List.mem_cons_of_mem call hc)
    simp only [Call.after, Call.verdicts, List.count_cons, beq_iff_eq]
    omega

/-- However a scanner has been used, its levels start with the document's, grow towards the top, and
fit into the room for them, which is no less than the variant's. It never asks for a level that is
not deeper than the open one. Opening appends a level, closing takes the last one away, and nothing
else changes the levels. So from any time on, until the state is replaced, the number of open levels
is what it was with the opens added and the closes taken off. -/
theorem stack_discipline (cfg : Config) (calls : List Call) :
    let s := Call.after cfg (.initial cfg.maxDepth) calls
    (s.stack.levels.head? = some 0 ∧ s.stack.levels.Pairwise (· < ·) ∧
      s.stack.levels.length ≤ s.stack.capacity ∧ max 1 cfg.maxDepth ≤ s.stack.capacity) ∧
    (∀ valid c depth top, (tryScan cfg valid s c).verdict ≠ .refused (.notDeeper depth top)) ∧
    (∀ call : Call, call.scans = true → s.stack.Follows (call.apply cfg s).2.stack (call.apply cfg s).1) ∧
    ∀ more, (∀ call ∈ more, call.scans = true) →
      (Call.after cfg s more).stack.opened.length +
          (Call.verdicts cfg s more).count (.produced .indentClose) =
        s.stack.opened.length + (Call.verdicts cfg s more).count (.produced .indentOpen) := by
  intro s
  have kept : s.Kept cfg := (kept_initial cfg).after calls
  refine ⟨⟨rfl, kept.valid.ascending, ?_, ?_⟩, fun valid => ne_notDeeper cfg valid s, ?_, ?_⟩
  · have fits := kept.valid.fits
    simpa [Stack.levels, Stack.size] using fits
  · rw [Nat.max_comm]; exact kept.room
  · intro call h
    exact (opens_apply h cfg s).follows
  · intro more h
    exact length_opened_after cfg more s h

end Offside
