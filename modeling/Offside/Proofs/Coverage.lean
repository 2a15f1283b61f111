import Offside.Proofs.LineFlags
import Offside.Proofs.Locality

/-!
# Tokens cover the text

`Covers` reads a text off its tokens: each character is in the text of the next token, or it is
passed over as indentation or as a stray return (`Insignificant`). The tokens of a source cover it
(`covers_tokenize`). So they stand in order and between characters, and a byte that lies in none of
them is insignificant (`spans_tokenize`).
-/

namespace Offside

/-- A character that needs no token: a stray return, or indentation with nothing but indentation
before it on its line. The text `u` stands before it. -/
def Insignificant (cfg : Config) (u : List Char) (x : Char) : Prop :=
  cfg.isReturn x = true ∨ cfg.isIndent x = true ∧ ∀ y ∈ lastLine u, cfg.isIndent y = true

def Fits (cfg : Config) (w r : List Char) : Token → Prop
  | .scanned .lineBreak => (w = [] ∧ r = []) ∨ w = ['\n'] ∨ cfg.crlf = true ∧ w = ['\r', '\n']
  | .scanned .comment => w ≠ [] ∧ '\n' ∉ w
  | .content _ => w ≠ [] ∧ '\n' ∉ w
  | .scanned _ => w = []

/-- Tokens that make up a text, but for insignificant characters. The text `u` stands before it. -/
inductive Covers (cfg : Config) : List Char → List Char → List Lexeme → Prop
  | nil (u : List Char) : Covers cfg u [] []
  | skip {u r : List Char} {x : Char} {ls : List Lexeme} : Insignificant cfg u x →
      Covers cfg (u ++ [x]) r ls → Covers cfg u (x :: r) ls
  | token {u w r : List Char} {t : Token} {ls : List Lexeme} : Fits cfg w r t →
      Covers cfg (u ++ w) r ls → Covers cfg u (w ++ r) (⟨t, byteLength u, byteLength (u ++ w)⟩ :: ls)

section
variable {cfg : Config} {u : List Char}

theorem isIndent_ne_newline {x : Char} (h : cfg.isIndent x = true) : x ≠ '\n' :=
  bne_iff_ne.mp (Layout.isIndent_inLine x h)

theorem insignificant_ne_newline {x : Char} (h : Insignificant cfg u x) : x ≠ '\n' := by
  rcases h with ret | ⟨indent, -⟩
  · exact isIndent_ne_newline (Config.isIndent_of_isReturn ret)
  · exact isIndent_ne_newline indent

/-! ## Strides cover what they take -/

theorem Covers.skip_indent : ∀ {w u r : List Char} {ls : List Lexeme},
    (∀ y ∈ lastLine u, cfg.isIndent y = true) → (∀ y ∈ w, cfg.isIndent y = true) →
    Covers cfg (u ++ w) r ls → Covers cfg u (w ++ r) ls
  | [], u, r, ls, _, _, h => by rwa [List.append_nil] at h
  | x :: w, u, r, ls, hu, hw, h => by
    have hx := hw x List.mem_cons_self
    have inLine : '\n' ∉ [x] := by
      rw [List.mem_singleton]
      exact (isIndent_ne_newline hx).symm
    refine .skip (.inr ⟨hx, hu⟩) (Covers.skip_indent ?_ (fun y hy => hw y (List.mem_cons_of_mem x hy)) ?_)
    · rw [lastLine_append u inLine]
      intro y hy
      rcases List.mem_append.mp hy with hy | hy
      · exact hu y hy
      · rw [List.mem_singleton.mp hy]; exact hx
    · rwa [List.append_assoc]

variable {a b : Spot} {ls : List Lexeme}

theorem Tracks.covers_indent {s : State} {x : Char} {r : List Char} (h : Tracks cfg u ⟨s, x :: r⟩)
    (hs : s.atLineStart = true)
    (rest : Covers cfg (u ++ (x :: r).takeWhile cfg.isIndent) ((x :: r).dropWhile cfg.isIndent) ls) :
    Covers cfg u (x :: r) ls := by
  have indent := List.all_eq_true.mp (List.all_takeWhile (p := cfg.isIndent) (l := x :: r))
  have all := rest.skip_indent (h.indent hs (by simp)) indent
  rwa [List.takeWhile_append_dropWhile] at all

theorem Scan.Turn.covers_before {p : Piece Verdict} (t : Turn cfg a p) (h : Tracks cfg u a)
    (rest : Covers cfg (u ++ p.before) (p.text ++ p.next.rest) ls) : Covers cfg u a.rest ls := by
  cases t with
  | finalBreak | lastClose | theEnd | lineFeed | returnLineFeed | inside | closesOne =>
    rwa [List.append_nil] at rest
  | comment | tooDeep => rwa [List.append_nil, List.takeWhile_append_dropWhile] at rest
  | loneReturn crlf => exact .skip (.inl (by simp [Config.isReturn, crlf])) rest
  | blank _ hs | settled _ hs | level _ hs => exact h.covers_indent hs rest

theorem Scan.Turn.covers_refused {p : Piece Verdict} {e : Stack.Error} (t : Turn cfg a p)
    (hs : p.sign = .refused e) (h : Tracks cfg u a) (rest : Covers cfg (u ++ p.whole) p.next.rest ls) :
    Covers cfg u a.rest ls := by
  cases t with
  | tooDeep _ flag => exact h.covers_indent flag rest
  | _ => cases hs

theorem comment_text {x : Char} {r : List Char} (hn : x ≠ '\n') (hr : ¬ (x = '\r' ∧ cfg.crlf = true)) :
    (x :: r).takeWhile (fun y => !cfg.endsComment y) ≠ [] := by
  rw [List.takeWhile_cons_of_pos (by rw [endsComment_eq_false hn hr]; rfl)]
  exact List.cons_ne_nil _ _

theorem Scan.Turn.fits {p : Piece Verdict} {k : Kind} (t : Turn cfg a p) (hs : p.sign = .produced k) :
    Fits cfg p.text p.next.rest (.scanned k) := by
  cases t with
  | finalBreak => cases hs; exact .inl ⟨rfl, rfl⟩
  | lineFeed => cases hs; exact .inr (.inl rfl)
  | returnLineFeed crlf => cases hs; exact .inr (.inr ⟨crlf, rfl⟩)
  | comment hn hr =>
    cases hs
    exact ⟨comment_text hn hr, not_mem_takeWhile (by simp [endsComment_newline]) _⟩
  | lastClose | closesOne => cases hs; rfl
  | settled _ _ _ settles => cases hs; cases settles <;> rfl
  | theEnd | loneReturn | inside | blank | tooDeep | level => cases hs

def Piece.lexemes (o : Nat) (m : Piece Sign) : List Lexeme :=
  match m.sign with
  | .token t => [⟨t, o + byteLength m.before, o + byteLength m.whole⟩]
  | _ => []

theorem tokens_ofStride (o i : Nat) (m : Piece Sign) : (Output.ofStride o i m).tokens = m.lexemes o := by
  unfold Output.ofStride Piece.lexemes
  cases m.sign <;> rfl

theorem lexemes_prepend (o : Nat) (w : List Char) (m : Piece Sign) :
    (m.prepend w).lexemes o = m.lexemes (o + byteLength w) := by
  simp [Piece.lexemes, Piece.prepend, Piece.whole, Nat.add_assoc]

theorem Advance.covers {m : Piece Sign} (t : Advance cfg a m) (h : Tracks cfg u a)
    (rest : Covers cfg (u ++ m.whole) m.next.rest ls) :
    Covers cfg u a.rest (m.lexemes (byteLength u) ++ ls) := by
  induction t generalizing u with
  | @scanned a b k v w t =>
    have token := Covers.token (u := u ++ v) (t.fits rfl) (by rwa [List.append_assoc])
    have all := t.covers_before h token
    rwa [List.append_assoc, byteLength_append, byteLength_append] at all
  | refused t => exact t.covers_refused rfl h rest
  | @content s s' r t stays flag ht =>
    have fits : Fits cfg t.lexeme t.rest (.content t.kind) :=
      ⟨Content.lexeme_ne_nil ht, Content.not_mem_lexeme ht (stays.head_ne_newline rfl)⟩
    have all := Covers.token fits rest
    rw [← Content.lexOne_append ht, byteLength_append] at all
    exact all
  | done => rwa [Piece.whole_mk, List.append_nil, List.append_nil] at rest
  | @passed a b w m t hw _ ih =>
    -- the token of the later reading stands behind what this one passes over
    have tracks := t.tracks h
    rw [Piece.whole_mk, List.append_nil] at tracks
    have behind := ih tracks (by rwa [List.append_assoc, ← Piece.whole_prepend])
    rw [lexemes_prepend, ← byteLength_append]
    exact t.covers_before h behind

theorem Leads.covers {ms : List (Piece Sign)} (h : Leads cfg a ms b) (ha : Tracks cfg u a) (i : Nat)
    (rest : Covers cfg (u ++ textOf ms) b.rest ls) :
    Covers cfg u a.rest ((Output.ofStrides (byteLength u) i ms).tokens ++ ls) := by
  induction h generalizing u i with
  | refl => simpa [Output.ofStrides] using rest
  | @step a b ms _ _ ih =>
    -- the rest is covered with the text of the first stride before it
    have t := advance cfg a
    have behind := ih (t.tracks ha) (i + tokenCount [stride cfg a])
      (by rwa [List.append_assoc, ← textOf_cons])
    have all := t.covers ha behind
    rwa [← tokens_ofStride _ i, ← List.append_assoc, byteLength_append] at all

end

/-! ## The end of the strides -/

theorem leads_to_end (cfg : Config) (a : Spot) :
    ∃ b, Leads cfg a (strides cfg a) b ∧ (stride cfg b).sign = .done := by
  obtain ⟨b, h, none⟩ := leads_of_strides_eq (List.append_nil (strides cfg a)).symm
  refine ⟨b, h, Decidable.byContradiction fun ne => ?_⟩
  rw [strides_of_ne_done ne] at none
  cases none

/-- The stride that ends takes what the others have left, stray returns for one. -/
theorem Leads.text_eq {cfg : Config} {a b : Spot} {ms : List (Piece Sign)} (h : Leads cfg a ms b)
    (done : (stride cfg b).sign = .done) : a.rest = textOf ms ++ (stride cfg b).whole := by
  have split := h.split
  rwa [stride_split cfg b, (stride_of_done b done).1, List.append_nil] at split

theorem tokens_tokenize (source : List Char) (cfg : Config) : (tokenize source cfg).tokens =
    (Output.ofStrides 0 0 (strides cfg (.start cfg source))).tokens := by
  rw [tokenize_eq]; rfl

theorem covers_tokenize (source : List Char) (cfg : Config) :
    Covers cfg [] source (tokenize source cfg).tokens := by
  obtain ⟨b, leads, done⟩ := leads_to_end cfg (.start cfg source)
  have start := tracks_start cfg source
  have tracks := leads.tracks start
  have last := (advance cfg b).covers tracks (by rw [(stride_of_done b done).1]; exact .nil _)
  simp only [Piece.lexemes, done, List.append_nil] at last
  have all := leads.covers start 0 last
  rw [List.append_nil] at all
  rw [tokens_tokenize]
  exact all

/-! ## Where tokens stand -/

structure Lexeme.Stands (cfg : Config) (v w r : List Char) (l : Lexeme) : Prop where
  span : l.span = ⟨byteLength v, byteLength (v ++ w)⟩
  fits : Fits cfg w r l.token

section
variable {cfg : Config} {u t : List Char} {ls : List Lexeme} {l : Lexeme}

theorem Covers.stands (h : Covers cfg u t ls) (hl : l ∈ ls) :
    ∃ v w r, t = v ++ (w ++ r) ∧ l.Stands cfg (u ++ v) w r := by
  induction h with
  | nil => cases hl
  | @skip u r x ls _ _ ih =>
    obtain ⟨v, w, r, rfl, hs⟩ := ih hl
    exact ⟨x :: v, w, r, rfl, by rwa [List.append_assoc] at hs⟩
  | @token u w r t ls fits _ ih =>
    rcases List.mem_cons.mp hl with rfl | hl
    · exact ⟨[], w, r, rfl, by rw [List.append_nil], fits⟩
    · obtain ⟨v, w', r, rfl, hs⟩ := ih hl
      exact ⟨w ++ v, w', r, by rw [List.append_assoc], by rwa [List.append_assoc] at hs⟩

theorem Covers.ordered (h : Covers cfg u t ls) : ls.Pairwise (fun l m => l.span.stop ≤ m.span.start) := by
  induction h with
  | nil => exact .nil
  | skip _ _ ih => exact ih
  | token _ rest ih =>
    refine .cons (fun m hm => ?_) ih
    obtain ⟨v, w, r, -, hs⟩ := rest.stands hm
    rw [hs.span, byteLength_append _ v]
    exact Nat.le_add_right _ _

theorem Covers.character {x : Char} {v r : List Char} (h : Covers cfg u t ls) (ht : t = v ++ x :: r) :
    Insignificant cfg (u ++ v) x ∨ ∃ l ∈ ls, ∃ v' w w' r', v = v' ++ w ∧ r = w' ++ r' ∧
      l.Stands cfg (u ++ v') (w ++ x :: w') r' := by
  induction h generalizing v with
  | nil => cases v <;> cases ht
  | @skip u r' y ls skip _ ih =>
    cases v with
    | nil =>
      obtain ⟨rfl, rfl⟩ := List.cons.inj ht
      exact .inl (by rwa [List.append_nil])
    | cons z v =>
      obtain ⟨rfl, rfl⟩ := List.cons.inj ht
      rcases ih rfl with ins | ⟨l, hl, v', w, w', r', rfl, rfl, hs⟩
      · exact .inl (by rwa [List.append_assoc] at ins)
      · exact .inr ⟨l, hl, y :: v', w, w', r', rfl, rfl, by rwa [List.append_assoc] at hs⟩
  | @token u w r' t ls fits _ ih =>
    -- the character stands behind the token's text or in it
    rcases append_split_of_cons ht with ⟨v, rfl, hr⟩ | ⟨w', rfl, rfl⟩
    · rcases ih hr with ins | ⟨l, hl, v', w₁, w', r', rfl, rfl, hs⟩
      · exact .inl (by rwa [List.append_assoc] at ins)
      · exact .inr ⟨l, List.mem_cons_of_mem _ hl, w ++ v', w₁, w', r', by rw [List.append_assoc], rfl,
          by rwa [List.append_assoc] at hs⟩
    · exact .inr ⟨_, List.mem_cons_self, [], v, w', r', rfl, rfl, by rw [List.append_nil], fits⟩

end

def Lexeme.Sized (n : Nat) (l : Lexeme) : Prop :=
  match l.token with
  | .content _ | .scanned .comment => l.span.start < l.span.stop
  | .scanned .lineBreak => l.span.start < l.span.stop ∨ l.span = ⟨n, n⟩
  | .scanned .indentOpen | .scanned .indentClose | .scanned .sameLevel => l.span.start = l.span.stop

section
variable {cfg : Config} {v w r : List Char} {l : Lexeme}

theorem byteLength_lt_append (hw : w ≠ []) : byteLength v < byteLength (v ++ w) := by
  have := mt byteLength_eq_zero_iff.mp hw
  rw [byteLength_append]; omega

theorem Lexeme.Stands.sized (h : l.Stands cfg v w r) : l.Sized (byteLength (v ++ (w ++ r))) := by
  obtain ⟨t, s⟩ := l
  obtain ⟨rfl, fits⟩ := h
  cases t with
  | content => exact byteLength_lt_append fits.1
  | scanned k =>
    cases k with
    | comment => exact byteLength_lt_append fits.1
    | lineBreak =>
      rcases fits with ⟨rfl, rfl⟩ | rfl | ⟨-, rfl⟩
      · right; simp
      · exact .inl (byteLength_lt_append (by simp))
      · exact .inl (byteLength_lt_append (by simp))
    | indentOpen | indentClose | sameLevel =>
      obtain rfl : w = [] := fits
      show byteLength v = byteLength (v ++ [])
      rw [List.append_nil]

theorem isIndent_iff {c : Char} : cfg.isIndent c = true ↔
    c = '\t' ∨ c = ' ' ∧ cfg.ignoreSpaces = true ∨ c = '\r' ∧ cfg.crlf = true := by
  simp [Config.isIndent, Config.isFiller]

theorem Insignificant.cases {u : List Char} {x : Char} (h : Insignificant cfg u x) :
    (x = '\t' ∨ x = ' ' ∧ cfg.ignoreSpaces = true ∨ x = '\r' ∧ cfg.crlf = true) ∧
      (x ≠ '\r' → ∀ y ∈ lastLine u, y = '\t' ∨ y = ' ' ∨ y = '\r') := by
  rcases h with ret | ⟨indent, before⟩
  · obtain ⟨rfl, crlf⟩ : x = '\r' ∧ cfg.crlf = true := by simpa [Config.isReturn] using ret
    exact ⟨.inr (.inr ⟨rfl, crlf⟩), fun ne => absurd rfl ne⟩
  · refine ⟨isIndent_iff.mp indent, fun _ y hy => ?_⟩
    exact (isIndent_iff.mp (before y hy)).imp_right (.imp And.left And.left)

theorem Insignificant.utf8Size {u : List Char} {x : Char} (h : Insignificant cfg u x) : x.utf8Size = 1 := by
  rcases h.cases.1 with rfl | ⟨rfl, -⟩ | ⟨rfl, -⟩ <;> rfl

end

/-- Tokens stand in order, within the text and between characters, and only tabs, spaces that do not
count and returns that do not count are in none of them, the tabs and spaces where a line starts. -/
theorem spans_tokenize (source : List Char) (cfg : Config) :
    (∀ l ∈ (tokenize source cfg).tokens,
      l.span.start ≤ l.span.stop ∧ l.span.stop ≤ byteLength source ∧
        IsBoundary l.span.start source ∧ IsBoundary l.span.stop source ∧ l.Sized (byteLength source)) ∧
    (tokenize source cfg).tokens.Pairwise (fun l m => l.span.stop ≤ m.span.start) ∧
    ∀ n, n < byteLength source →
      (∀ l ∈ (tokenize source cfg).tokens, ¬ (l.span.start ≤ n ∧ n < l.span.stop)) →
      ∃ u x r, source = u ++ x :: r ∧ byteLength u = n ∧
        (x = '\t' ∨ x = ' ' ∧ cfg.ignoreSpaces = true ∨ x = '\r' ∧ cfg.crlf = true) ∧
        (x ≠ '\r' → ∀ y ∈ lastLine u, y = '\t' ∨ y = ' ' ∨ y = '\r') := by
  have covers := covers_tokenize source cfg
  refine ⟨fun l hl => ?_, covers.ordered, fun n hn none => ?_⟩
  · obtain ⟨v, w, r, split, hs⟩ := covers.stands hl
    rw [List.nil_append] at hs
    have sized := hs.sized
    rw [← split] at sized
    rw [hs.span]
    refine ⟨?_, ?_, ⟨v, w ++ r, split, rfl⟩, ⟨v ++ w, r, by rw [split, List.append_assoc], rfl⟩, sized⟩
    · simp
    · rw [split, ← List.append_assoc]; simp
  · obtain ⟨u, x, r, split, le, lt⟩ := exists_char_of_lt hn
    rcases covers.character split with ins | ⟨l, hl, v, w, w', r', rfl, rfl, hs⟩
    · rw [List.nil_append] at ins
      have small := ins.utf8Size
      rw [byteLength_append, byteLength_cons, small, byteLength_nil] at lt
      exact ⟨u, x, r, split, by omega, ins.cases⟩
    · refine absurd ⟨?_, ?_⟩ (none l hl)
      · rw [hs.span]; simp at le ⊢; omega
      · rw [hs.span]; simp at lt ⊢; omega

end Offside
