import Offside.Lex.Document
import Offside.Proofs.Locality
import Offside.Proofs.Resume

/-!
# Lexing an edited text again

A checkpoint stands where strides have taken the text up to a line start (`leads_of_checkpoint`).
The same strides take it in the edited source, so the output before the checkpoint stays. Where a
new checkpoint meets an old one with an equal snapshot, the states are equal and the texts behind
are the same, so the old output holds there, moved. What `relex` puts together is therefore the
output of the edited text (`relex_eq`).
-/

namespace Offside

/-! ## Output at checkpoints -/

theorem leads_of_checkpoint {cfg : Config} {source : List Char} {p : Checkpoint}
    (h : p ∈ (tokenize source cfg).checkpoints) :
    ∃ ms b, Leads cfg (.start cfg source) ms b ∧ AtLine ms ∧
      b.state.stack.size ≤ Snapshot.maxLevels ∧
      p = ⟨byteLength (textOf ms), tokenCount ms, Snapshot.encode b.state⟩ := by
  rw [tokenize_eq] at h
  rcases List.mem_cons.mp h with rfl | h
  · exact ⟨[], _, .refl _, atLine_nil, show 1 ≤ 255 by decide, rfl⟩
  · obtain ⟨ns, m, ks, e, ends, small, rfl⟩ := Output.split_of_mem_checkpoints h
    rw [List.append_cons] at e
    obtain ⟨b, leads, -⟩ := leads_of_strides_eq e
    obtain rfl := leads.next_eq
    refine ⟨ns ++ [m], m.next, leads, atLine_append_singleton.mpr ends, small, ?_⟩
    rw [Nat.zero_add, Nat.zero_add]

namespace Output

variable {n k : Nat} {x y : Output}

theorem CutAt.before_eq {snapshot : List UInt8} (h : CutAt n k x y) :
    before ⟨n, k, snapshot⟩ (x.append y) = x := by
  have tokens : (x.append y).tokens.take k = x.tokens := List.take_left' h.tokens
  have cps : (x.append y).checkpoints.takeWhile (·.offset ≤ n) = x.checkpoints :=
    takeWhile_append_left (fun p hp => decide_eq_true (h.checkpoints.1 p hp)) fun p hp =>
      decide_eq_false (Nat.not_le.mpr (h.checkpoints.2 p hp))
  simp only [before, tokens, h.diagnostics_before, cps]

theorem CutAt.behind_eq {o i : Nat} {s t : List UInt8} {ms : List (Piece Sign)}
    (h : CutAt n k x (ofStrides n k ms)) :
    behind ⟨n, k, s⟩ ⟨o, i, t⟩ (x.append (ofStrides n k ms)) = ofStrides o i ms := by
  have tokens : (x.append (ofStrides n k ms)).tokens.drop k = (ofStrides n k ms).tokens :=
    List.drop_left' h.tokens
  have there := ofStrides_move n k 0 0 ms
  have here := ofStrides_move o i 0 0 ms
  rw [Nat.zero_add, Nat.zero_add] at there here
  simp only [behind, tokens, h.diagnostics_behind, h.checkpoints_behind]
  rw [there, here]
  simp [moveBy, Lexeme.shift, Diagnostic.shift, Span.shift]

theorem lastCheckpoint?_tokenize (source : List Char) (cfg : Config) (offset : Nat) :
    ∃ p ∈ (tokenize source cfg).checkpoints, (tokenize source cfg).lastCheckpoint? offset = some p ∧
      p.offset ≤ offset := by
  cases h : (tokenize source cfg).lastCheckpoint? offset with
  | none =>
    rw [lastCheckpoint?, List.getLast?_eq_none_iff, tokenize_eq] at h
    simp [append, opening] at h
  | some p =>
    have hm := List.mem_of_getLast? h
    have le := of_decide_eq_true (List.all_eq_true.mp List.all_takeWhile p hm)
    exact ⟨p, (List.takeWhile_sublist _).subset hm, rfl, le⟩

end Output

/-! ## One edit -/

namespace Document

theorem cut_eq_ok_iff {start stop : Nat} {source before behind : List Char} :
    cut start stop source = .ok (before, behind) ↔
      ∃ replaced, source = before ++ replaced ++ behind ∧ byteLength before = start ∧
        byteLength (before ++ replaced) = stop := by
  unfold cut
  constructor
  · intro h
    split at h
    · cases h
    · next hr =>
      split at h
      · cases h
      · cases h
      · next ht hd =>
        cases h
        obtain ⟨r, hsrc, rfl⟩ := takeBytes?_eq_some_iff.mp ht
        obtain ⟨u, hsrc', rfl⟩ := dropBytes?_eq_some_iff.mp hd
        obtain ⟨replaced, rfl, -⟩ := append_split_of_byteLength_le (hsrc.symm.trans hsrc') (by omega)
        exact ⟨replaced, hsrc', rfl, rfl⟩
  · rintro ⟨replaced, rfl, rfl, rfl⟩
    have ht := takeBytes?_append before (replaced ++ behind)
    have hd := dropBytes?_append (before ++ replaced) behind
    rw [← List.append_assoc] at ht
    rw [if_neg (by simp only [byteLength_append]; omega), ht, hd]

theorem cut_eq_error_iff {start stop : Nat} {source : List Char} :
    (∃ e, cut start stop source = .error e) ↔
      stop < start ∨ byteLength source < stop ∨ ¬ IsBoundary start source ∨ ¬ IsBoundary stop source := by
  unfold cut
  split
  · next h => exact ⟨fun _ => h.imp_right .inl, fun _ => ⟨_, rfl⟩⟩
  · next h =>
    rw [not_or] at h
    simp only [h.1, h.2, false_or]
    split
    · next ht => exact ⟨fun _ => .inl (takeBytes?_eq_none_iff.mp ht), fun _ => ⟨_, rfl⟩⟩
    · next hd => exact ⟨fun _ => .inr (dropBytes?_eq_none_iff.mp hd), fun _ => ⟨_, rfl⟩⟩
    · next ht hd =>
      refine ⟨nofun, fun bad => ?_⟩
      rcases bad with bad | bad
      · rw [takeBytes?_eq_none_iff.mpr bad] at ht; cases ht
      · rw [dropBytes?_eq_none_iff.mpr bad] at hd; cases hd

theorem rest_eq_of_edit {before replaced replacement behind u v r t : List Char}
    (old : before ++ replaced ++ behind = u ++ r) (new : before ++ replacement ++ behind = v ++ t)
    (le : byteLength (before ++ replacement) ≤ byteLength v)
    (e : byteLength u = byteLength v - byteLength (before ++ replacement) + byteLength (before ++ replaced)) :
    r = t := by
  obtain ⟨w, rfl, rfl⟩ := append_split_of_byteLength_le new le
  rw [← List.append_assoc] at old
  rw [byteLength_append (before ++ replacement), Nat.add_sub_cancel_left] at e
  exact (append_inj_of_byteLength old (by rw [byteLength_append, e, Nat.add_comm])).2.symm

theorem rejoin?_eq_some {old : Output} {inserted stop : Nat} {p o n : Checkpoint}
    (h : rejoin? old inserted stop p = some (o, n)) :
    n = p ∧ inserted ≤ p.offset ∧ o ∈ old.checkpoints ∧ o.offset = p.offset - inserted + stop ∧
      o.snapshot = p.snapshot := by
  unfold rejoin? at h
  split at h
  · cases h
  · next le =>
    obtain ⟨q, hq, e⟩ := Option.map_eq_some_iff.mp h
    cases e
    have found := List.find?_some hq
    simp only [Bool.and_eq_true, beq_iff_eq] at found
    exact ⟨rfl, by omega, List.mem_of_find?_eq_some hq, found.1, found.2⟩

theorem eq_of_rejoined {cfg : Config} {before replaced replacement behind v : List Char} {c d : Spot}
    {ms : List (Piece Sign)} (old : Leads cfg (.start cfg (before ++ replaced ++ behind)) ms d)
    (new : before ++ replacement ++ behind = v ++ c.rest) (sound : c.state.Sound cfg)
    (smallC : c.state.stack.size ≤ Snapshot.maxLevels) (smallD : d.state.stack.size ≤ Snapshot.maxLevels)
    (snapshot : Snapshot.encode d.state = Snapshot.encode c.state)
    (le : byteLength (before ++ replacement) ≤ byteLength v)
    (offset : byteLength (textOf ms) =
      byteLength v - byteLength (before ++ replacement) + byteLength (before ++ replaced)) : d = c := by
  have state := Snapshot.encode_inj (old.sound (sound_initial cfg)) sound smallD smallC snapshot
  have rest := rest_eq_of_edit old.split new le offset
  obtain ⟨_, _⟩ := d
  obtain ⟨_, _⟩ := c
  cases state
  cases rest
  rfl

section
variable (cfg : Config) (before replaced replacement behind : List Char)

theorem relex_eq {p : Checkpoint} (hp : p ∈ (tokenize (before ++ replaced ++ behind) cfg).checkpoints)
    (le : p.offset ≤ byteLength before) :
    (relex (before ++ replacement ++ behind) cfg (tokenize (before ++ replaced ++ behind) cfg)
      (byteLength (before ++ replacement)) (byteLength (before ++ replaced)) p).1 =
        tokenize (before ++ replacement ++ behind) cfg := by
  obtain ⟨ms, b, leads, at', small, rfl⟩ := leads_of_checkpoint hp
  have sound := leads.sound (sound_initial cfg)
  -- the text in front of the edit begins with the text up to the checkpoint
  have split : before ++ (replaced ++ behind) = textOf ms ++ b.rest := by
    rw [← List.append_assoc]; exact leads.split
  obtain ⟨w, hw, -⟩ := append_split_of_byteLength_le split.symm le
  have new : before ++ replacement ++ behind = textOf ms ++ (w ++ replacement ++ behind) := by
    rw [hw]; simp
  obtain ⟨ms', leads', text, count, same⟩ := leads.swap at' (w ++ replacement ++ behind)
  have upTo : Output.upTo cfg ms' = .upTo cfg ms := by rw [Output.upTo, same]; rfl
  have resumed := Lexer.at_resume (a := ⟨b.state, w ++ replacement ++ behind⟩) new sound small
  obtain ⟨ns, c, leadsN, out, halts⟩ := resumed.run
    (f := rejoin? (tokenize (before ++ replaced ++ behind) cfg)
      (byteLength (before ++ replacement)) (byteLength (before ++ replaced)))
    (i := tokenCount ms)
  have all : tokenize (before ++ replacement ++ behind) cfg =
      ((Output.upTo cfg ms).append (.ofStrides (byteLength (textOf ms)) (tokenCount ms) ns)).append
        (.ofStrides (byteLength (textOf ms) + byteLength (textOf ns)) (tokenCount ms + tokenCount ns)
          (strides cfg c)) := by
    have start : Leads cfg (.start cfg (before ++ replacement ++ behind)) ms'
        ⟨b.state, w ++ replacement ++ behind⟩ := by
      rw [new]; exact leads'
    rw [tokenize_of_leads start, upTo, Output.onward, text, count, leadsN.strides_eq, Output.ofStrides_append,
      Output.append_assoc]
  have before_eq : (tokenize (before ++ replaced ++ behind) cfg).before
      ⟨byteLength (textOf ms), tokenCount ms, Snapshot.encode b.state⟩ = .upTo cfg ms := by
    rw [tokenize_of_leads leads]; exact (cutAt_of_leads leads).before_eq
  simp only [relex, before_eq, out, all]
  congr 1
  split
  · next none =>
    rw [none] at halts
    rw [halts.1]; rfl
  · next o n some =>
    rw [some] at halts
    obtain ⟨smallC, qs, q, -, -, found, rfl⟩ := halts
    obtain ⟨rfl, ge, ho, offset, snapshot⟩ := rejoin?_eq_some found
    obtain ⟨ks, d, leadsO, -, smallD, rfl⟩ := leads_of_checkpoint ho
    have taken : before ++ replacement ++ behind = (textOf ms ++ textOf ns) ++ c.rest := by
      have onward : w ++ replacement ++ behind = textOf ns ++ c.rest := leadsN.split
      rw [new, onward, List.append_assoc]
    rw [← byteLength_append] at ge offset
    obtain rfl := eq_of_rejoined leadsO taken (leadsN.sound sound) smallC smallD snapshot ge offset
    rw [tokenize_of_leads leadsO]
    exact (cutAt_of_leads leadsO).behind_eq

end

end Document

end Offside
