import Offside.Lex.Lexer
import Offside.Proofs.Boundary
import Offside.Proofs.LineContent
import Offside.Proofs.Reading

/-!
# What one step of a lexer reads

`stride` says what a step of a lexer does from the text ahead alone: the scanner's readings up to
the first that decides something, or else a content token. A lexer that stands at an offset and a
spot (`Lexer.At`) gives the event of the spot's stride, placed at the offset, and then stands
behind it (`Lexer.At.step`). Strides inherit what holds of readings: they take the front of the
text, keep line feeds for line breaks, and do not look past one.
-/

namespace Offside

inductive Sign where
  | token (token : Token)
  | refused (why : Stack.Error)
  | done
deriving DecidableEq, Repr

def stride (cfg : Config) (a : Spot) : Piece Sign :=
  let p := Scan.reading cfg cfg.kinds a
  match p.sign with
  | .produced k => ⟨.token (.scanned k), p.before, p.text, p.next⟩
  | .refused e => ⟨.refused e, p.before, p.text, p.next⟩
  | .nothing =>
    if _h : p.whole = [] then
      match Content.lexOne a.rest with
      | some t => ⟨.token (.content t.kind), [], t.lexeme, ⟨p.next.state, t.rest⟩⟩
      | none => ⟨.done, [], [], p.next⟩
    else (stride cfg p.next).prepend p.whole
termination_by a.rest.length
decreasing_by
  have split : a.rest.length = (p.whole ++ p.next.rest).length :=
    congrArg List.length (Scan.reading_split cfg cfg.kinds a)
  have := List.length_pos_iff.mpr _h
  rw [List.length_append] at split
  show p.next.rest.length < a.rest.length
  omega

def Piece.event (o : Nat) (m : Piece Sign) : Event :=
  match m.sign with
  | .token t => .token ⟨t, o + byteLength m.before, o + byteLength m.whole⟩
  | .refused e => .refused ⟨o + byteLength m.before, e⟩
  | .done => .done

theorem event_prepend (o : Nat) (w : List Char) (m : Piece Sign) :
    (m.prepend w).event o = m.event (o + byteLength w) := by
  simp [Piece.event, Piece.prepend, Piece.whole, Nat.add_assoc]

/-! ## One case for each way a stride can go -/

section
variable {cfg : Config} {a : Spot}

theorem stride_of_produced {k : Kind} (h : (Scan.reading cfg cfg.kinds a).sign = .produced k) :
    stride cfg a = ⟨.token (.scanned k), (Scan.reading cfg cfg.kinds a).before,
      (Scan.reading cfg cfg.kinds a).text, (Scan.reading cfg cfg.kinds a).next⟩ := by
  rw [stride]; simp only [h]

theorem stride_of_refused {e : Stack.Error} (h : (Scan.reading cfg cfg.kinds a).sign = .refused e) :
    stride cfg a = ⟨.refused e, (Scan.reading cfg cfg.kinds a).before,
      (Scan.reading cfg cfg.kinds a).text, (Scan.reading cfg cfg.kinds a).next⟩ := by
  rw [stride]; simp only [h]

theorem stride_of_passed (h : (Scan.reading cfg cfg.kinds a).sign = .nothing)
    (hw : (Scan.reading cfg cfg.kinds a).whole ≠ []) :
    stride cfg a = (stride cfg (Scan.reading cfg cfg.kinds a).next).prepend
      (Scan.reading cfg cfg.kinds a).whole := by
  rw [stride]; simp only [h, hw, dite_false]

theorem stride_of_content {t : Content.Taken} (h : (Scan.reading cfg cfg.kinds a).sign = .nothing)
    (hw : (Scan.reading cfg cfg.kinds a).whole = []) (ht : Content.lexOne a.rest = some t) :
    stride cfg a = ⟨.token (.content t.kind), [], t.lexeme,
      ⟨(Scan.reading cfg cfg.kinds a).next.state, t.rest⟩⟩ := by
  rw [stride]; simp only [h, hw, dite_true, ht]

theorem stride_of_end (h : (Scan.reading cfg cfg.kinds a).sign = .nothing)
    (hw : (Scan.reading cfg cfg.kinds a).whole = []) (ht : Content.lexOne a.rest = none) :
    stride cfg a = ⟨.done, [], [], (Scan.reading cfg cfg.kinds a).next⟩ := by
  rw [stride]; simp only [h, hw, dite_true, ht]

end

/-! ## Strides and lexers -/

namespace Lexer

/-- A lexer at an offset, with the scanner's memory and the text ahead as in `a`. If it has got
done, there is nothing more to find there. -/
structure At (cfg : Config) (o : Nat) (a : Spot) (lx : Lexer) : Prop where
  config : lx.config = cfg
  state : lx.state = a.state
  here : lx.cursor.here = ⟨o, a.rest⟩
  finished : lx.finished = true → stride cfg a = ⟨.done, [], [], a⟩

def spot (lx : Lexer) : Spot := ⟨lx.state, lx.cursor.rest⟩

theorem At.eq {cfg : Config} {o : Nat} {a : Spot} {lx : Lexer} (h : lx.At cfg o a) :
    lx.config = cfg ∧ lx.position = o ∧ lx.spot = a := by
  obtain ⟨s, r⟩ := a
  exact ⟨h.config, congrArg Point.offset h.here, by rw [spot, h.state, Cursor.rest, h.here]⟩

theorem agrees_of_tryScan {lx : Lexer} {out : Outcome}
    (h : tryScan lx.config lx.config.kinds lx.state lx.cursor.begin = out) :
    Scan.Agrees lx.cursor (Scan.reading lx.config lx.config.kinds lx.spot) out :=
  h ▸ Scan.agrees_tryScan ..

end Lexer

theorem reading_of_done {cfg : Config} {a : Spot} (h : (Scan.reading cfg cfg.kinds a).sign = .nothing)
    (hw : (Scan.reading cfg cfg.kinds a).whole = []) (hr : a.rest = []) :
    (Scan.reading cfg cfg.kinds a).next = a := by
  obtain ⟨s, r⟩ := a
  obtain rfl : r = [] := hr
  simp only [Scan.reading, Scan.readEnd] at h ⊢
  split at h
  · cases h
  · next h1 =>
    split at h
    · cases h
    · next h2 => rw [if_neg h1, if_neg h2]

theorem stride_of_done {cfg : Config} (a : Spot) (h : (stride cfg a).sign = .done) :
    (stride cfg a).next.rest = [] ∧
      stride cfg (stride cfg a).next = ⟨.done, [], [], (stride cfg a).next⟩ := by
  fun_induction stride cfg a with
  | case1 | case2 | case3 => cases h
  | case4 a p hs hw ht =>
    have hr := Content.lexOne_eq_none_iff.mp ht
    have same : p.next = a := reading_of_done hs hw hr
    refine ⟨by rw [same]; exact hr, ?_⟩
    rw [same, stride_of_end hs hw ht, same]
  | case5 a p hs hw ih => exact ih h

namespace Lexer

theorem whole_of_position {c d : Cursor} {w r : List Char}
    (h : d.here = ⟨c.position + byteLength w, r⟩) (e : d.position = c.position) : w = [] := by
  rw [Cursor.position, h] at e
  exact byteLength_eq_zero_iff.mp (by simpa using e)

/-- A step of a lexer is the stride of where it stands. -/
theorem At.step {cfg : Config} {o : Nat} {a : Spot} {lx : Lexer} (hat : lx.At cfg o a) :
    lx.step.1 = (stride cfg a).event o ∧
      lx.step.2.At cfg (o + byteLength (stride cfg a).whole) (stride cfg a).next := by
  fun_induction Lexer.step lx generalizing o a with
  | case1 lx h =>
    rw [hat.finished h]
    exact ⟨rfl, hat⟩
  | case2 lx hf c kind state d =>
    rename_i h
    obtain ⟨rfl, rfl, rfl⟩ := hat.eq
    obtain ⟨hs, hst, hstart, hstop⟩ := agrees_of_tryScan h
    rw [stride_of_produced hs]
    refine ⟨?_, rfl, hst, hstop, fun e => absurd e hf⟩
    simp only [Piece.event, hstart, hstop]
    rfl
  | case3 lx hf c why state d =>
    rename_i h
    obtain ⟨rfl, rfl, rfl⟩ := hat.eq
    obtain ⟨hs, hst, hhere⟩ := agrees_of_tryScan h
    rw [stride_of_refused hs]
    refine ⟨?_, rfl, hst, hhere, fun e => absurd e hf⟩
    simp only [Piece.event, Scan.before_of_refused hs]
    rfl
  | case4 lx hf c state d h hm =>
    rename_i ih
    obtain ⟨rfl, rfl, rfl⟩ := hat.eq
    obtain ⟨hs, hst, hhere⟩ := agrees_of_tryScan h
    rw [stride_of_passed hs fun e => hm (by rw [Cursor.position, hhere, e]; rfl), event_prepend,
      Piece.whole_prepend, byteLength_append, ← Nat.add_assoc]
    exact ih ⟨rfl, hst, hhere, fun e => absurd e hf⟩
  | case5 lx hf c state d h hm t =>
    rename_i ht p
    obtain ⟨rfl, rfl, rfl⟩ := hat.eq
    obtain ⟨hs, hst, hhere⟩ := agrees_of_tryScan h
    have stays := whole_of_position hhere (Decidable.not_not.mp hm)
    rw [stride_of_content hs stays ht]
    exact ⟨rfl, rfl, hst, rfl, fun e => absurd e hf⟩
  | case6 lx hf c state d h hm =>
    rename_i ht
    obtain ⟨rfl, rfl, rfl⟩ := hat.eq
    obtain ⟨hs, hst, hhere⟩ := agrees_of_tryScan h
    have stays := whole_of_position hhere (Decidable.not_not.mp hm)
    have done := stride_of_end hs stays ht
    have again := (stride_of_done _ (congrArg Piece.sign done)).2
    rw [done] at again ⊢
    rw [stays] at hhere
    exact ⟨rfl, rfl, hst, hhere, fun _ => again⟩

end Lexer

/-! ## What a stride takes -/

theorem onLine_prepend {α : Type} {cfg : Config} {b : α} {w : List Char} {p : Piece α}
    (h : p.OnLine cfg b) (hw : '\n' ∉ w) : (p.prepend w).OnLine cfg b :=
  ⟨by simp [Piece.prepend, hw, h.before], h.terminator, h.inside⟩

section
variable (cfg : Config) (a : Spot)

theorem stride_split : a.rest = (stride cfg a).whole ++ (stride cfg a).next.rest := by
  fun_induction stride cfg a with
  | case1 | case2 => exact Scan.reading_split cfg cfg.kinds _
  | case3 a p hs hw t ht => exact Content.lexOne_append ht
  | case4 a p hs hw ht =>
    have := Scan.reading_split cfg cfg.kinds a
    rw [hw] at this; exact this
  | case5 a p hs hw ih =>
    rw [Piece.whole_prepend, List.append_assoc]
    simp only [Piece.prepend]
    rw [← ih]
    exact Scan.reading_split cfg cfg.kinds a

theorem not_mem_of_passed (h : (Scan.reading cfg cfg.kinds a).sign = .nothing) :
    '\n' ∉ (Scan.reading cfg cfg.kinds a).whole := by
  have line := Scan.onLine_reading cfg a
  have := line.inside (by rw [h]; nofun)
  simp [Piece.whole, line.before, this]

theorem head_ne_newline (h : (Scan.reading cfg cfg.kinds a).sign = .nothing) :
    a.rest.head? ≠ some '\n' := by
  intro e
  obtain ⟨r, hr⟩ := List.head?_eq_some_iff.mp e
  simp [Scan.reading, hr] at h

theorem stride_onLine : (stride cfg a).OnLine cfg (.token (.scanned .lineBreak)) := by
  fun_induction stride cfg a with
  | case1 a p k hs =>
    have line := Scan.onLine_reading cfg a
    refine ⟨line.before, fun e => line.terminator ?_, fun e => line.inside ?_⟩
    · cases e; exact hs
    · intro e'
      rw [show p.sign = _ from hs] at e'
      cases e'; exact e rfl
  | case2 a p e hs =>
    have line := Scan.onLine_reading cfg a
    exact ⟨line.before, nofun, fun _ => line.inside (by rw [show p.sign = _ from hs]; nofun)⟩
  | case3 a p hs hw t ht =>
    exact ⟨by simp, nofun, fun _ => Content.not_mem_lexeme ht (head_ne_newline cfg a hs)⟩
  | case4 => exact ⟨by simp, nofun, by simp⟩
  | case5 a p hs hw ih => exact onLine_prepend ih (not_mem_of_passed cfg a hs)

end

theorem stride_text_of_refused {cfg : Config} {a : Spot} {e : Stack.Error}
    (h : (stride cfg a).sign = .refused e) : (stride cfg a).text ≠ [] := by
  fun_induction stride cfg a with
  | case1 | case3 | case4 => cases h
  | case2 a p e hs => exact Scan.text_of_refused hs
  | case5 a p hs hw ih => exact ih h

theorem stride_extend {cfg : Config} {a : Spot} (u : List Char) (h : '\n' ∈ a.rest) :
    stride cfg (a.extend u) = (stride cfg a).extend u := by
  have looks (a : Spot) (h : '\n' ∈ a.rest) : Scan.reading cfg cfg.kinds (a.extend u) =
      (Scan.reading cfg cfg.kinds a).extend u := Scan.reading_extend u h
  fun_induction stride cfg a with
  | case1 a p k hs =>
    have e := looks a h
    have := stride_of_produced (a := a.extend u) (by rw [e]; exact hs)
    rw [this, e]; rfl
  | case2 a p k hs =>
    have e := looks a h
    have := stride_of_refused (a := a.extend u) (by rw [e]; exact hs)
    rw [this, e]; rfl
  | case3 a p hs hw t ht =>
    have e := looks a h
    have := stride_of_content (a := a.extend u) (by rw [e]; exact hs) (by rw [e]; exact hw)
      (by rw [Spot.extend_rest, Content.lexOne_append_of_mem u h, ht]; rfl)
    rw [this, e]; rfl
  | case4 a p hs hw ht => rw [Content.lexOne_eq_none_iff.mp ht] at h; cases h
  | case5 a p hs hw ih =>
    have e := looks a h
    have := stride_of_passed (a := a.extend u) (by rw [e]; exact hs) (by rw [e]; exact hw)
    have ahead : '\n' ∈ p.next.rest := by
      rw [Scan.reading_split cfg cfg.kinds a, List.mem_append] at h
      exact h.resolve_left (not_mem_of_passed cfg a hs)
    rw [this, e]
    exact congrArg (Piece.prepend p.whole) (ih ahead)

theorem stride_weight_lt (cfg : Config) (a : Spot) (h : (stride cfg a).sign ≠ .done) :
    Scan.weight (stride cfg a).next.state (stride cfg a).next.rest < Scan.weight a.state a.rest := by
  obtain ⟨s, r⟩ := a
  let lx : Lexer := ⟨cfg, s, ⟨r, ⟨0, r⟩, 0, none, false⟩, false⟩
  have hat : lx.At cfg 0 ⟨s, r⟩ := ⟨rfl, rfl, rfl, nofun⟩
  obtain ⟨hev, hnext⟩ := hat.step
  have lt := lx.step_weight_lt (by
    rw [hev, Piece.event]
    cases hs : (stride cfg ⟨s, r⟩).sign with
    | done => exact absurd hs h
    | token t => nofun
    | refused e => nofun)
  rwa [Lexer.weight, Lexer.weight, hnext.state, Cursor.rest, hnext.here] at lt

end Offside
