import Offside.Proofs.Relexing

/-!
# Lexing does not depend on the place

A stride is free of offsets, so a lexer's position says where its spans stand and nothing else. Two
lexers in equal states with equal texts ahead go on alike, in sources of any kind and at any two
places of them: what they give differs by the distance of the places alone (`translated`). So the
output behind a checkpoint holds wherever the same text follows in an equal state
(`tokenize_behind`).
-/

namespace Offside

def Event.shift (move : Nat → Nat) : Event → Event
  | .token l => .token (l.shift move)
  | .refused d => .refused (d.shift move)
  | .done => .done

theorem event_move (o d : Nat) (m : Piece Sign) : m.event (o + d) = (m.event o).shift (· + d) := by
  unfold Piece.event
  cases m.sign with
  | token t => simp only [Event.shift, Lexeme.shift, Span.shift, Nat.add_right_comm]
  | refused e => simp only [Event.shift, Diagnostic.shift, Nat.add_right_comm]
  | done => rfl

/-- Two places at one distance from two others: what is moved by the others' offsets is the same. -/
theorem event_move_cross (a b k : Nat) (m : Piece Sign) :
    (m.event (a + k)).shift (· + b) = (m.event (b + k)).shift (· + a) := by
  rw [← event_move, ← event_move, Nat.add_right_comm, Nat.add_right_comm b, Nat.add_comm a b]

theorem ofStrides_move_cross (a b i j : Nat) (ms : List (Piece Sign)) :
    (Output.ofStrides a i ms).moveBy b j = (Output.ofStrides b j ms).moveBy a i := by
  rw [← Output.ofStrides_move, ← Output.ofStrides_move, Nat.add_comm a b, Nat.add_comm i j]

namespace Lexer

structure StandsAt (cfg : Config) (source : List Char) (offset : Nat) (lx : Lexer) : Prop where
  config : lx.config = cfg
  unfinished : lx.finished = false
  boundary : IsBoundary offset source
  here : lx.cursor.here = Point.atOffset source offset

section
variable {cfg : Config} {source : List Char} {offset : Nat} {lx : Lexer}

theorem StandsAt.at (h : lx.StandsAt cfg source offset) :
    ∃ r, dropBytes? offset source = some r ∧ lx.At cfg offset ⟨lx.state, r⟩ := by
  obtain ⟨u, r, rfl, rfl⟩ := h.boundary
  refine ⟨r, dropBytes?_append u r, h.config, rfl, ?_, fun e => ?_⟩
  · rw [h.here, atOffset_append]
  · rw [h.unfinished] at e; cases e

theorem Reads.standsAt (h : lx.Reads cfg source) (hf : lx.finished = false) :
    lx.StandsAt cfg source lx.position := by
  obtain ⟨u, a, hat, -, rfl⟩ := h
  rw [hat.eq.2.1]
  exact ⟨hat.config, hf, ⟨u, a.rest, rfl, rfl⟩, by rw [hat.here, atOffset_append]⟩

end

section
variable {cfg : Config} {a b : Nat}

theorem At.alongside : ∀ (n : Nat) {k : Nat} {c : Spot} {lx ly : Lexer},
    lx.At cfg (a + k) c → ly.At cfg (b + k) c →
    ∃ k' c', (lx.after n).At cfg (a + k') c' ∧ (ly.after n).At cfg (b + k') c'
  | 0, _, _, _, _, hx, hy => ⟨_, _, hx, hy⟩
  | n + 1, k, c, lx, ly, hx, hy => by
    have hx' := hx.step.2
    have hy' := hy.step.2
    rw [Nat.add_assoc] at hx' hy'
    exact At.alongside n hx' hy'

end

end Lexer

theorem tokenize_behind {cfg : Config} {s t : List Char} {p q : Checkpoint}
    (hp : p ∈ (tokenize s cfg).checkpoints) (hq : q ∈ (tokenize t cfg).checkpoints)
    (snapshot : p.snapshot = q.snapshot) (same : dropBytes? p.offset s = dropBytes? q.offset t) :
    tokenize t cfg = ((tokenize t cfg).before q).append ((tokenize s cfg).behind p q) := by
  obtain ⟨ms, c, leadsS, -, smallS, rfl⟩ := leads_of_checkpoint hp
  obtain ⟨ns, d, leadsT, -, smallT, rfl⟩ := leads_of_checkpoint hq
  have state : c.state = d.state := Snapshot.encode_inj (leadsS.sound (sound_initial cfg))
    (leadsT.sound (sound_initial cfg)) smallS smallT snapshot
  have splitS : s = textOf ms ++ c.rest := leadsS.split
  have splitT : t = textOf ns ++ d.rest := leadsT.split
  have rest : c.rest = d.rest := by
    rw [splitS, splitT, dropBytes?_append, dropBytes?_append] at same
    exact Option.some.inj same
  obtain rfl : c = d := by cases c; cases d; cases state; cases rest; rfl
  have before : (tokenize t cfg).before
      ⟨byteLength (textOf ns), tokenCount ns, Snapshot.encode c.state⟩ = .upTo cfg ns := by
    rw [tokenize_of_leads leadsT]; exact (cutAt_of_leads leadsT).before_eq
  have behind : (tokenize s cfg).behind
      ⟨byteLength (textOf ms), tokenCount ms, Snapshot.encode c.state⟩
      ⟨byteLength (textOf ns), tokenCount ns, Snapshot.encode c.state⟩ = .onward cfg ns c := by
    rw [tokenize_of_leads leadsS]; exact (cutAt_of_leads leadsS).behind_eq
  rw [before, behind]
  exact tokenize_of_leads leadsT

namespace Lexer

/-- Lexers in equal states with the same text ahead, at the offset `a` of one source and at `b` of
another, give the same events step by step, but that offsets differ by `b - a`: they are equal once
those of the first are moved by `b` and those of the second by `a`. After each step the states are
equal, and the lexers are equally far from where they were. So are the outputs up to the end, and
the output of one source behind a checkpoint holds, moved, behind one of the other. -/
theorem translated {cfg : Config} {s t : List Char} {a b : Nat} {lx ly : Lexer}
    (hx : lx.StandsAt cfg s a) (hy : ly.StandsAt cfg t b) (state : lx.state = ly.state)
    (same : dropBytes? a s = dropBytes? b t) :
    (∀ n, (lx.after n).step.1.shift (· + b) = (ly.after n).step.1.shift (· + a) ∧
      (lx.after n).step.2.state = (ly.after n).step.2.state ∧
      (lx.after n).step.2.position + b = (ly.after n).step.2.position + a) ∧
    (∀ i j, (lx.run (fun _ => (none : Option Unit)) i).1.moveBy b j =
      (ly.run (fun _ => (none : Option Unit)) j).1.moveBy a i) ∧
    ∀ p ∈ (tokenize s cfg).checkpoints, ∀ q ∈ (tokenize t cfg).checkpoints,
      p.offset = a → q.offset = b → p.snapshot = q.snapshot →
      tokenize t cfg = ((tokenize t cfg).before q).append ((tokenize s cfg).behind p q) := by
  obtain ⟨r, hr, atX⟩ := hx.at
  obtain ⟨r', hr', atY⟩ := hy.at
  obtain rfl : r = r' := by rw [hr, hr'] at same; exact Option.some.inj same
  rw [← state] at atY
  refine ⟨fun n => ?_, fun i j => ?_, ?_⟩
  · obtain ⟨k, c, hx, hy⟩ := At.alongside (a := a) (b := b) (k := 0) n atX atY
    obtain ⟨evX, nextX⟩ := hx.step
    obtain ⟨evY, nextY⟩ := hy.step
    refine ⟨?_, nextX.state.trans nextY.state.symm, ?_⟩
    · rw [evX, evY]; exact event_move_cross a b k _
    · rw [nextX.eq.2.1, nextY.eq.2.1]; omega
  · rw [atX.run_to_end, atY.run_to_end]
    exact ofStrides_move_cross a b i j _
  · rintro p hp q hq rfl rfl snapshot
    exact tokenize_behind hp hq snapshot same

theorem translated_to_refusal :
    ((ofSource "é\n\tb".toList { maxDepth := 1 }).after 2).StandsAt { maxDepth := 1 } "é\n\tb".toList 3 ∧
      ((ofSource "abc\n\tb".toList { maxDepth := 1 }).after 2).StandsAt { maxDepth := 1 }
        "abc\n\tb".toList 4 ∧
      ((ofSource "é\n\tb".toList { maxDepth := 1 }).after 2).state =
        ((ofSource "abc\n\tb".toList { maxDepth := 1 }).after 2).state ∧
      dropBytes? 3 "é\n\tb".toList = dropBytes? 4 "abc\n\tb".toList ∧
      (((ofSource "é\n\tb".toList { maxDepth := 1 }).after 2).after 0).step.1.shift (· + 4) =
        (((ofSource "abc\n\tb".toList { maxDepth := 1 }).after 2).after 0).step.1.shift (· + 3) :=
  have readsX := Reads.after 2 (reads_ofSource "é\n\tb".toList { maxDepth := 1 })
  have readsY := Reads.after 2 (reads_ofSource "abc\n\tb".toList { maxDepth := 1 })
  have posX : ((ofSource "é\n\tb".toList { maxDepth := 1 }).after 2).position = 3 := by decide +kernel
  have posY : ((ofSource "abc\n\tb".toList { maxDepth := 1 }).after 2).position = 4 := by decide +kernel
  have hx := posX ▸ readsX.standsAt (by decide +kernel)
  have hy := posY ▸ readsY.standsAt (by decide +kernel)
  have state : ((ofSource "é\n\tb".toList { maxDepth := 1 }).after 2).state =
      ((ofSource "abc\n\tb".toList { maxDepth := 1 }).after 2).state := by decide +kernel
  have same : dropBytes? 3 "é\n\tb".toList = dropBytes? 4 "abc\n\tb".toList := by decide +kernel
  ⟨hx, hy, state, same, ((translated hx hy state same).1 0).1⟩

end Lexer

end Offside
