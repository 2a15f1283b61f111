import Offside.Lex.Lexer
import Offside.Proofs.Boundary
import Offside.Proofs.Snapshots

/-!
# Lexing taken up again

A lexer of a source stands, after any number of steps, in a sound state at a boundary of the source
(`Lexer.Reads.after`). The lexer resumed from a checkpoint taken there stands at the same spot, and
two lexers at one spot go on alike (`At.after`). So a checkpoint can be taken after any step
whatever, and lexing from it goes on exactly as it would have (`resume_exact`).
-/

namespace Offside

namespace Lexer

def after : Nat → Lexer → Lexer
  | 0, lx => lx
  | n + 1, lx => after n lx.step.2

def Reads (cfg : Config) (source : List Char) (lx : Lexer) : Prop :=
  ∃ u a, lx.At cfg (byteLength u) a ∧ a.state.Sound cfg ∧ source = u ++ a.rest

theorem at_ofSource (source : List Char) (cfg : Config) :
    (ofSource source cfg).At cfg 0 ⟨.initial cfg.maxDepth, source⟩ :=
  ⟨rfl, rfl, atOffset_append [] source, nofun⟩

theorem reads_ofSource (source : List Char) (cfg : Config) : (ofSource source cfg).Reads cfg source :=
  ⟨[], _, at_ofSource source cfg, sound_initial cfg, rfl⟩

theorem Reads.step {cfg : Config} {source : List Char} {lx : Lexer} (h : lx.Reads cfg source) :
    lx.step.2.Reads cfg source := by
  obtain ⟨u, a, hat, sound, rfl⟩ := h
  refine ⟨u ++ (stride cfg a).whole, _, ?_, sound_stride sound, ?_⟩
  · rw [byteLength_append]; exact hat.step.2
  · rw [List.append_assoc, ← stride_split]

theorem Reads.after {cfg : Config} {source : List Char} : ∀ (n : Nat) {lx : Lexer},
    lx.Reads cfg source → (lx.after n).Reads cfg source
  | 0, _, h => h
  | n + 1, _, h => Reads.after n h.step

theorem At.after {cfg : Config} : ∀ (m : Nat) {o : Nat} {a : Spot} {lx ly : Lexer},
    lx.At cfg o a → ly.At cfg o a → ∃ o' a', (lx.after m).At cfg o' a' ∧ (ly.after m).At cfg o' a'
  | 0, _, _, _, _, hx, hy => ⟨_, _, hx, hy⟩
  | m + 1, _, _, _, _, hx, hy => At.after m hx.step.2 hy.step.2

theorem at_resume {cfg : Config} {source u : List Char} {a : Spot} (hsrc : source = u ++ a.rest)
    (sound : a.state.Sound cfg) (small : a.state.stack.size ≤ Snapshot.maxLevels) :
    (resume source cfg (byteLength u) (Snapshot.encode a.state)).At cfg (byteLength u) a :=
  ⟨rfl, Snapshot.restore_encode sound small, hsrc ▸ atOffset_append u a.rest, nofun⟩

theorem checkpoint?_eq_some_iff {k : Nat} {lx : Lexer} {p : Checkpoint} :
    lx.checkpoint? k = some p ↔
      lx.state.stack.size ≤ Snapshot.maxLevels ∧ p = ⟨lx.position, k, Snapshot.encode lx.state⟩ := by
  unfold checkpoint?
  split
  · next h => simp; omega
  · next h =>
    constructor
    · intro e; cases e; exact ⟨by omega, rfl⟩
    · rintro ⟨-, rfl⟩; rfl

/-- A checkpoint can be taken after any number of steps, unless more levels are open than a
snapshot holds, and lexing taken up from it gives every event and every state that is to come. -/
theorem resume_exact (source : List Char) (cfg : Config) (n k : Nat) :
    ((((ofSource source cfg).after n).checkpoint? k).isSome = true ↔
        ((ofSource source cfg).after n).state.stack.size ≤ Snapshot.maxLevels) ∧
      ∀ p, ((ofSource source cfg).after n).checkpoint? k = some p →
        (resume source cfg p.offset p.snapshot).state = ((ofSource source cfg).after n).state ∧
        ∀ m,
          ((resume source cfg p.offset p.snapshot).after m).step.1 =
            (((ofSource source cfg).after n).after m).step.1 ∧
          ((resume source cfg p.offset p.snapshot).after m).step.2.state =
            (((ofSource source cfg).after n).after m).step.2.state := by
  refine ⟨?_, fun p hp => ?_⟩
  · rw [Option.isSome_iff_exists]
    constructor
    · rintro ⟨p, hp⟩; exact (checkpoint?_eq_some_iff.mp hp).1
    · intro small; exact ⟨_, checkpoint?_eq_some_iff.mpr ⟨small, rfl⟩⟩
  obtain ⟨small, rfl⟩ := checkpoint?_eq_some_iff.mp hp
  obtain ⟨u, a, hat, sound, hsrc⟩ := Reads.after n (reads_ofSource source cfg)
  have resumed := at_resume hsrc sound (hat.state ▸ small)
  rw [hat.state, hat.eq.2.1]
  refine ⟨resumed.state, fun m => ?_⟩
  obtain ⟨o, b, hx, hy⟩ := At.after m resumed hat
  exact ⟨hx.step.1.trans hy.step.1.symm, hx.step.2.state.trans hy.step.2.state.symm⟩

theorem resume_between_closes :
    ((ofSource "a\n\t\tb\n\t\t\tc\nd\n".toList {}).after 9).checkpoint? 9 =
        some ⟨11, 9, [2, 0, 0, 0, 0, 2, 0, 0, 0, 1, 0]⟩ ∧
      ((resume "a\n\t\tb\n\t\t\tc\nd\n".toList {} 11 [2, 0, 0, 0, 0, 2, 0, 0, 0, 1, 0]).after 1).step.1 =
        (((ofSource "a\n\t\tb\n\t\t\tc\nd\n".toList {}).after 9).after 1).step.1 :=
  have taken : ((ofSource "a\n\t\tb\n\t\t\tc\nd\n".toList {}).after 9).checkpoint? 9 =
      some ⟨11, 9, [2, 0, 0, 0, 0, 2, 0, 0, 0, 1, 0]⟩ := by decide +kernel
  ⟨taken, (((resume_exact "a\n\t\tb\n\t\t\tc\nd\n".toList {} 9 9).2 _ taken).2 1).1⟩

end Lexer

end Offside
