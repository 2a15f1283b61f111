import Mathlib.Data.List.TakeWhile
import Offside.Proofs.LineBreaks
import Offside.Proofs.LongestMatch

/-!
# Tokens up to the end of a line

A comment and a raw string take what is left of their line, up to the first return that they do not
take in (`Advance.text_to_lineEnd`). In front of a terminator this is the end of the line. But a raw
string takes in no return, and a comment none that could belong to a terminator, so a stray return
cuts them short (`toLineEnd_tokenize`).
-/

namespace Offside

/-! ## The rest of a line -/

namespace Config

def atTerminator (cfg : Config) : List Char → Bool
  | '\n' :: _ => true
  | '\r' :: '\n' :: _ => cfg.crlf
  | _ => false

def lineRest (cfg : Config) : List Char → List Char
  | [] => []
  | x :: r => if cfg.atTerminator (x :: r) then [] else x :: cfg.lineRest r

def lineEnd? (cfg : Config) (source : List Char) (start : Nat) : Option Nat :=
  (dropBytes? start source).map fun t => start + byteLength (cfg.lineRest t)

theorem atTerminator_cases {cfg : Config} {x : Char} {r : List Char}
    (h : cfg.atTerminator (x :: r) = true) : x = '\n' ∨ x = '\r' ∧ cfg.crlf = true := by
  unfold atTerminator at h
  split at h
  · next e => exact .inl (List.cons.inj e).1
  · next e => exact .inr ⟨(List.cons.inj e).1, h⟩
  · cases h

/-- Up to a return, it makes no difference whether the return belongs to a terminator. -/
theorem takeWhile_lineRest {cfg : Config} {p : Char → Bool} (h : cfg.crlf = true → p '\r' = false) :
    ∀ t, (cfg.lineRest t).takeWhile p = t.takeWhile fun x => x != '\n' && p x
  | [] => rfl
  | x :: r => by
    rw [lineRest]
    by_cases ends : cfg.atTerminator (x :: r) = true
    · rw [if_pos ends]
      rcases atTerminator_cases ends with rfl | ⟨rfl, crlf⟩
      · simp
      · simp [h crlf]
    · have feed : x ≠ '\n' := by
        rintro rfl
        exact ends rfl
      rw [if_neg ends]
      by_cases hx : p x = true
      · simp [feed, hx, takeWhile_lineRest h r]
      · simp [hx]

end Config

def Token.takesIn (cfg : Config) : Token → Char → Bool
  | .content .rawString, x => x != '\r'
  | _, x => x != '\r' || !cfg.crlf

def Token.toLineEnd (t : Token) : Bool := t == .scanned .comment || t == .content .rawString

/-! ## Raw strings -/

theorem Pattern.matches_many_one_iff {p : Char → Bool} : ∀ {w : List Char},
    Matches (.many (.one p)) w ↔ ∀ x ∈ w, p x = true
  | [] => ⟨nofun, fun _ => .manyNil⟩
  | c :: w => by
    rw [matches_many_cons_iff, List.forall_mem_cons]
    constructor
    · rintro ⟨u, v, rfl, hu, hv⟩
      obtain ⟨d, one, hd⟩ := matches_one_iff.mp hu
      cases one
      exact ⟨hd, matches_many_one_iff.mp hv⟩
    · rintro ⟨hc, hw⟩
      exact ⟨[], w, rfl, .one hc, matches_many_one_iff.mpr hw⟩

namespace Content

theorem matches_rawString_iff {w : List Char} : rawString.pattern.Matches w ↔
    ∃ v, w = '\x5c' :: v ∧ ∀ x ∈ v, (x != '\r' && x != '\n') = true := by
  rw [pattern, Pattern.matches_seq_iff]
  constructor
  · rintro ⟨u, v, rfl, hu, hv⟩
    obtain ⟨d, rfl, hd⟩ := Pattern.matches_one_iff.mp hu
    obtain rfl : d = '\x5c' := by simpa using hd
    exact ⟨v, rfl, Pattern.matches_many_one_iff.mp hv⟩
  · rintro ⟨v, rfl, hv⟩
    exact ⟨['\x5c'], v, rfl, .one rfl, Pattern.matches_many_one_iff.mpr hv⟩

theorem Taken.Longest.rawString {text : List Char} {t : Taken} (h : t.Longest text)
    (kind : t.kind = .rawString) : t.lexeme = text.takeWhile fun x => x != '\r' && x != '\n' := by
  have spells := h.spells
  rw [kind] at spells
  obtain ⟨v, hv, plain⟩ := matches_rawString_iff.mp spells
  have inside : ∀ x ∈ t.lexeme, (x != '\r' && x != '\n') = true := by
    rw [hv, List.forall_mem_cons]
    exact ⟨by decide, plain⟩
  have stops : t.rest.takeWhile (fun x => x != '\r' && x != '\n') = [] := by
    cases hr : t.rest with
    | nil => rfl
    | cons x r =>
      refine List.takeWhile_cons_of_neg fun hx => ?_
      -- a longer front would match
      have longer : Content.rawString.pattern.Matches (t.lexeme ++ [x]) := by
        refine matches_rawString_iff.mpr ⟨v ++ [x], by rw [hv]; rfl, ?_⟩
        intro y hy
        rcases List.mem_append.mp hy with hy | hy
        · exact plain y hy
        · rw [List.mem_singleton.mp hy]
          exact hx
      have le := h.longest _ _ r (by rw [h.split, hr, List.append_assoc]; rfl) longer
      have pos := x.utf8Size_pos
      simp at le
      omega
  rw [h.split, List.takeWhile_append_of_pos inside, stops, List.append_nil]

theorem longest_of_lexOne {text : List Char} {t : Taken} (ht : lexOne text = some t)
    (head : text.head? ≠ some '\n') : t.Longest text := by
  cases text with
  | nil => cases ht
  | cons c r =>
    obtain ⟨u, hu, longest⟩ := lexOne_longest (c := c) (r := r) (by simpa using head)
    rw [ht] at hu
    cases hu
    exact longest

end Content

/-! ## Strides -/

section
variable {cfg : Config} {a b : Spot}

theorem not_endsComment (cfg : Config) (x : Char) :
    (!cfg.endsComment x) = (x != '\n' && Token.takesIn cfg (.scanned .comment) x) := by
  rw [Config.endsComment, Bool.not_or, Bool.not_and]
  rfl

theorem Advance.text_to_lineEnd {m : Piece Sign} {t : Token} (h : Advance cfg a m) (hs : m.sign = .token t)
    (line : t.toLineEnd = true) :
    m.text = (m.text ++ m.next.rest).takeWhile fun x => x != '\n' && t.takesIn cfg x := by
  induction h with
  | @scanned a b k v w turn =>
    cases hs
    obtain rfl : k = .comment := by simpa [Token.toLineEnd] using line
    cases turn with
    | comment =>
      simp only [List.takeWhile_append_dropWhile]
      simp only [not_endsComment]
    | settled _ _ _ settles => cases settles
  | @content s s' r t stays flag ht =>
    cases hs
    obtain kind : t.kind = .rawString := by simpa [Token.toLineEnd] using line
    have longest := Content.longest_of_lexOne ht (stays.head_ne_newline rfl)
    have text := longest.rawString kind
    simp only [← longest.split, kind, Token.takesIn]
    rw [text]
    congr 1
    funext x
    exact Bool.and_comm _ _
  | refused | done => cases hs
  | passed _ _ _ ih => exact ih hs

theorem Leads.stride_of_token {ms : List (Piece Sign)} {l : Lexeme} (h : Leads cfg a ms b) {o i : Nat}
    (hl : l ∈ (Output.ofStrides o i ms).tokens) : ∃ ns c, Leads cfg a ns c ∧
      (stride cfg c).sign = .token l.token ∧
      l.span = ⟨o + byteLength (textOf ns ++ (stride cfg c).before),
        o + byteLength (textOf ns ++ (stride cfg c).whole)⟩ := by
  induction h generalizing o i with
  | refl => cases hl
  | @step a b ms ne _ ih =>
    rcases List.mem_append.mp hl with here | behind
    · rw [tokens_ofStride] at here
      refine ⟨[], a, .refl a, (mem_lexemes here).1, ?_⟩
      unfold Piece.lexemes at here
      split at here
      · rw [List.mem_singleton.mp here]
        rfl
      · cases here
    · obtain ⟨ns, c, leads, sign, span⟩ := ih behind
      refine ⟨stride cfg a :: ns, c, .step ne leads, sign, ?_⟩
      rw [span]
      simp [Nat.add_assoc]

end

/-! ## The tokens of a source -/

theorem takesIn_return {cfg : Config} {t : Token} (line : t.toLineEnd = true) (crlf : cfg.crlf = true) :
    t.takesIn cfg '\r' = false := by
  cases t with
  | scanned k => simp [Token.takesIn, crlf]
  | content c =>
    obtain rfl : c = .rawString := by simpa [Token.toLineEnd] using line
    rfl

theorem byteLength_takeWhile_eq_iff {p : Char → Bool} {l : List Char} :
    byteLength (l.takeWhile p) = byteLength l ↔ ∀ x ∈ l, p x = true := by
  rw [← List.takeWhile_eq_self_iff]
  constructor
  · intro len
    have parts := List.takeWhile_append_dropWhile (p := p) (l := l)
    exact (append_inj_of_byteLength (parts.trans (List.append_nil l).symm) len).1
  · intro same
    rw [same]

/-- A comment or a raw string takes what is left of its line, up to the first return that it does not
take in. So it ends where its line ends unless there is such a return. -/
theorem toLineEnd_tokenize (source : List Char) (cfg : Config) {l : Lexeme}
    (hl : l ∈ (tokenize source cfg).tokens) (line : l.token.toLineEnd = true) :
    ∃ t, dropBytes? l.span.start source = some t ∧
      l.span.stop = l.span.start + byteLength ((cfg.lineRest t).takeWhile (l.token.takesIn cfg)) ∧
      (cfg.lineEnd? source l.span.start = some l.span.stop ↔
        ∀ x ∈ cfg.lineRest t, l.token.takesIn cfg x = true) := by
  rw [tokens_tokenize] at hl
  obtain ⟨b, leads⟩ := leads_strides cfg (.start cfg source)
  obtain ⟨ns, c, leads, sign, span⟩ := leads.stride_of_token hl
  have text := (advance cfg c).text_to_lineEnd sign line
  rw [← Config.takeWhile_lineRest (takesIn_return line)] at text
  have split : source = textOf ns ++ (stride cfg c).before ++
      ((stride cfg c).text ++ (stride cfg c).next.rest) := by
    have behind : source = textOf ns ++ c.rest := leads.split
    rw [behind, stride_split cfg c, Piece.whole]
    simp
  generalize (stride cfg c).text ++ (stride cfg c).next.rest = t at text split
  have start : l.span.start = byteLength (textOf ns ++ (stride cfg c).before) := by
    rw [span, Nat.zero_add]
  have stop : l.span.stop = l.span.start + byteLength (stride cfg c).text := by
    rw [start, span, Piece.whole]
    simp [Nat.add_assoc]
  have behind : dropBytes? l.span.start source = some t := by
    rw [start, split]
    exact dropBytes?_append _ t
  rw [text] at stop
  refine ⟨t, behind, stop, ?_⟩
  rw [Config.lineEnd?, behind, Option.map_some, Option.some_inj, stop, ← byteLength_takeWhile_eq_iff]
  omega

theorem toLineEnd_tokenize_before_terminator :
    (⟨.scanned .comment, 0, 2⟩ : Lexeme) ∈ (tokenize "#c\r\nd".toList { commentMark := some '#' }).tokens ∧
      Config.lineEnd? { commentMark := some '#' } "#c\r\nd".toList 0 = some 2 := by
  have hl : (⟨.scanned .comment, 0, 2⟩ : Lexeme) ∈
      (tokenize "#c\r\nd".toList { commentMark := some '#' }).tokens := by decide +kernel
  obtain ⟨t, ht, -, iff⟩ := toLineEnd_tokenize _ _ hl rfl
  cases ht
  exact ⟨hl, iff.mpr (List.all_eq_true.mp (by decide +kernel))⟩

/-- A stray return cuts a raw string and a comment short. -/
theorem toLineEnd_tokenize_cut :
    let cfg : Config := { commentMark := some '#' }
    let source := "\x5ca\rb\n#c\rd".toList
    ((⟨.content .rawString, 0, 2⟩ : Lexeme) ∈ (tokenize source cfg).tokens ∧
        cfg.lineEnd? source 0 = some 4) ∧
      (⟨.scanned .comment, 5, 7⟩ : Lexeme) ∈ (tokenize source cfg).tokens ∧
        cfg.lineEnd? source 5 = some 9 := by
  decide +kernel

end Offside
