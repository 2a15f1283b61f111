import Mathlib.Data.List.TakeWhile
import Offside.Token.Listing

/-!
# Listings are read in one way

The parts of a line of a listing can be told from what stands behind them: a number from its end on
(`toDigits_append_inj`), a quoted text from its closing quote on (`quote_append_inj`), and so a whole
line (`simpleLine_append_inj`). Hence two listings that look the same list the same tokens with the
same texts, and the line feeds in a listing are the ends of its lines (`simple_faithful`).
-/

namespace Offside

/-- Two texts that go on in the same way were cut at the same place, if both are cut in front of the
first character of some kind. -/
theorem append_inj_of_forall {p : Char → Bool} {u v r s : List Char} (hu : ∀ x ∈ u, p x = true)
    (hv : ∀ x ∈ v, p x = true) (hr : ∀ x ∈ r.head?, p x = false) (hs : ∀ x ∈ s.head?, p x = false)
    (h : u ++ r = v ++ s) : u = v ∧ r = s := by
  have front : ∀ {u r : List Char}, (∀ x ∈ u, p x = true) → (∀ x ∈ r.head?, p x = false) →
      (u ++ r).takeWhile p = u := by
    intro u r hu hr
    rw [List.takeWhile_append_of_pos hu]
    cases r with
    | nil => simp
    | cons x r => simp [hr x rfl]
  have same : u = v := by rw [← front hu hr, h, front hv hs]
  subst same
  exact ⟨rfl, List.append_cancel_left h⟩

/-! ## Numbers -/

section
variable {b : Nat}

theorem isAlphanum_digitChar : ∀ d < 16, (Nat.digitChar d).isAlphanum = true := by decide

theorem digitChar_inj : ∀ d < 16, ∀ e < 16, Nat.digitChar d = Nat.digitChar e → d = e := by decide

theorem isAlphanum_of_mem_toDigits (one : 1 < b) (sixteen : b ≤ 16) {n : Nat} :
    ∀ x ∈ Nat.toDigits b n, x.isAlphanum = true := by
  induction n using Nat.strongRecOn with
  | _ n ih =>
    intro x hx
    rw [Nat.toDigits_eq_if one] at hx
    split at hx
    · next small =>
      rw [List.mem_singleton.mp hx]
      exact isAlphanum_digitChar n (by omega)
    · next large =>
      rcases List.mem_append.mp hx with front | last
      · exact ih (n / b) (Nat.div_lt_self (by omega) one) x front
      · rw [List.mem_singleton.mp last]
        exact isAlphanum_digitChar _ (by have := Nat.mod_lt n (show 0 < b by omega); omega)

theorem toDigits_eq_concat (one : 1 < b) (n : Nat) : Nat.toDigits b n =
    (if n < b then [] else Nat.toDigits b (n / b)) ++ [Nat.digitChar (n % b)] := by
  rw [Nat.toDigits_eq_if one]
  split
  · next small => rw [Nat.mod_eq_of_lt small, List.nil_append]
  · rfl

/-- The last digit tells the remainder, and those in front of it tell the quotient. -/
theorem toDigits_inj (one : 1 < b) (sixteen : b ≤ 16) {n m : Nat}
    (h : Nat.toDigits b n = Nat.toDigits b m) : n = m := by
  induction n using Nat.strongRecOn generalizing m with
  | _ n ih =>
    rw [toDigits_eq_concat one n, toDigits_eq_concat one m] at h
    obtain ⟨front, last⟩ := List.append_inj' h rfl
    have digit : ∀ k, k % b < 16 := fun k => Nat.lt_of_lt_of_le (Nat.mod_lt k (by omega)) sixteen
    have remainder : n % b = m % b := digitChar_inj _ (digit n) _ (digit m) (List.cons.inj last).1
    by_cases small : n < b <;> by_cases small' : m < b
    · rwa [Nat.mod_eq_of_lt small, Nat.mod_eq_of_lt small'] at remainder
    · rw [if_pos small, if_neg small'] at front
      exact absurd front.symm Nat.toDigits_ne_nil
    · rw [if_neg small, if_pos small'] at front
      exact absurd front Nat.toDigits_ne_nil
    · rw [if_neg small, if_neg small'] at front
      have quotient : n / b = m / b := ih (n / b) (Nat.div_lt_self (by omega) one) front
      rw [← Nat.div_add_mod n b, ← Nat.div_add_mod m b, quotient, remainder]

theorem toDigits_append_inj (one : 1 < b) (sixteen : b ≤ 16) {n m : Nat} {x : Char} {r s : List Char}
    (stops : x.isAlphanum = false) (h : Nat.toDigits b n ++ x :: r = Nat.toDigits b m ++ x :: s) :
    n = m ∧ r = s := by
  have first : ∀ {t : List Char}, ∀ y ∈ (x :: t).head?, y.isAlphanum = false := by
    intro t y hy
    cases hy
    exact stops
  obtain ⟨digits, behind⟩ := append_inj_of_forall (isAlphanum_of_mem_toDigits one sixteen)
    (isAlphanum_of_mem_toDigits one sixteen) first first h
  exact ⟨toDigits_inj one sixteen digits, (List.cons.inj behind).2⟩

end

/-! ## Quoted texts -/

namespace Quoted

def meant : Char → Char
  | 't' => '\t'
  | 'n' => '\n'
  | 'r' => '\r'
  | '0' => '\x00'
  | c => c

inductive Written (c : Char) : List Char → Prop where
  | plain (quote : c ≠ '\x22') (mark : c ≠ '\x5c') (line : c ≠ '\n') : Written c [c]
  | short (letter : Char) (other : letter ≠ 'u') (line : letter ≠ '\n') (means : meant letter = c) :
    Written c ['\x5c', letter]
  | long : Written c (codePoint c)

theorem written (c : Char) : Written c (escape c) := by
  unfold escape
  split
  · next marks =>
    rcases marks with rfl | rfl
    · exact .short _ (by decide) (by decide) rfl
    · exact .short _ (by decide) (by decide) rfl
  · next marks =>
    split
    · next e => exact .short _ (by decide) (by decide) e.symm
    · split
      · next e => exact .short _ (by decide) (by decide) e.symm
      · next line =>
        split
        · next e => exact .short _ (by decide) (by decide) e.symm
        · split
          · next e => exact .short _ (by decide) (by decide) e.symm
          · split
            · exact .plain (fun e => marks (.inl e)) (fun e => marks (.inr e)) line
            · exact .long

section
variable {c d : Char} {w w' u v : List Char}

theorem Written.not_mem_newline (h : Written c w) : '\n' ∉ w := by
  cases h with
  | plain _ _ line => exact fun inside => line (List.mem_singleton.mp inside).symm
  | short letter _ line => simpa using line.symm
  | long =>
    simp only [codePoint, List.mem_append]
    rintro ((front | digits) | close)
    · exact absurd front (by decide)
    · exact absurd (isAlphanum_of_mem_toDigits (by decide) (by decide) _ digits) (by decide)
    · exact absurd close (by decide)

theorem Written.head (h : Written c w) : ∃ x r, w = x :: r ∧ x ≠ '\x22' := by
  cases h with
  | plain quote => exact ⟨c, [], rfl, quote⟩
  | short letter => exact ⟨'\x5c', [letter], rfl, by decide⟩
  | long => exact ⟨'\x5c', _, rfl, by decide⟩

theorem Written.append_inj (h : Written c w) (h' : Written d w') (e : w ++ u = w' ++ v) :
    c = d ∧ u = v := by
  cases h with
  | plain quote mark line =>
    cases h' with
    | plain => exact List.cons.inj e
    | short | long => exact absurd (List.cons.inj e).1 mark
  | short letter other line means =>
    cases h' with
    | plain _ mark => exact absurd (List.cons.inj e).1.symm mark
    | short letter' _ _ means' =>
      obtain ⟨letters, behind⟩ := List.cons.inj (List.cons.inj e).2
      exact ⟨by rw [← means, ← means', letters], behind⟩
    | long => exact absurd (List.cons.inj (List.cons.inj e).2).1 other
  | long =>
    cases h' with
    | plain _ mark => exact absurd (List.cons.inj e).1.symm mark
    | short letter' other => exact absurd (List.cons.inj (List.cons.inj e).2).1.symm other
    | long =>
      simp only [codePoint, List.append_assoc] at e
      have digits := List.append_cancel_left e
      obtain ⟨number, behind⟩ := toDigits_append_inj (by decide) (by decide) (by decide) digits
      exact ⟨Char.toNat_inj.mp number, behind⟩

end

theorem escape_append_inj {c d : Char} {u v : List Char} (h : escape c ++ u = escape d ++ v) :
    c = d ∧ u = v := (written c).append_inj (written d) h

/-- No character is written with a quote in front, so the first one there closes the text. -/
theorem flatMap_escape_inj {s t u v : List Char}
    (h : s.flatMap escape ++ '\x22' :: u = t.flatMap escape ++ '\x22' :: v) : s = t ∧ u = v := by
  induction s generalizing t with
  | nil =>
    cases t with
    | nil => exact ⟨rfl, (List.cons.inj h).2⟩
    | cons d t =>
      obtain ⟨x, r, hx, ne⟩ := (written d).head
      rw [List.flatMap_cons, hx] at h
      exact absurd (List.cons.inj h).1.symm ne
  | cons c s ih =>
    cases t with
    | nil =>
      obtain ⟨x, r, hx, ne⟩ := (written c).head
      rw [List.flatMap_cons, hx] at h
      exact absurd (List.cons.inj h).1 ne
    | cons d t =>
      rw [List.flatMap_cons, List.flatMap_cons, List.append_assoc, List.append_assoc] at h
      obtain ⟨rfl, more⟩ := escape_append_inj h
      obtain ⟨rfl, behind⟩ := ih more
      exact ⟨rfl, behind⟩

end Quoted

theorem quote_append_inj {s t u v : List Char} (h : quote s ++ u = quote t ++ v) : s = t ∧ u = v := by
  simp only [quote, List.cons_append, List.append_assoc] at h
  exact Quoted.flatMap_escape_inj (List.cons.inj h).2

theorem not_mem_quote (s : List Char) : '\n' ∉ quote s := by
  simp only [quote, List.mem_append, List.mem_cons, List.mem_flatMap]
  rintro ((front | ⟨c, -, inside⟩) | close)
  · exact absurd front (by decide)
  · exact (Quoted.written c).not_mem_newline inside
  · exact absurd close (by decide)

/-! ## Lines -/

theorem Token.ofName?_name (t : Token) : ofName? t.name = some t := by
  rcases t with k | k <;> cases k <;> rfl

theorem Token.name_inj {t t' : Token} (h : t.name = t'.name) : t = t' :=
  Option.some.inj (t.ofName?_name.symm.trans ((congrArg ofName? h).trans t'.ofName?_name))

theorem Token.inWord_of_mem_name (t : Token) : ∀ x ∈ t.name.toList, (x != ' ' && x != '\n') = true := by
  refine List.all_eq_true.mp ?_
  rcases t with k | k <;> cases k <;> decide

def Token.tail (text : List Char) : Token → List Char
  | scanned _ => []
  | content _ => ' ' :: quote text

theorem Token.tail_stops (t : Token) (text r : List Char) :
    ∀ x ∈ (t.tail text ++ '\n' :: r).head?, (x != ' ' && x != '\n') = false := by
  cases t <;> simp [tail]

theorem Token.tail_append_inj {t : Token} {w w' u v : List Char}
    (h : t.tail w ++ '\n' :: u = t.tail w' ++ '\n' :: v) : (∀ k, t = .content k → w = w') ∧ u = v := by
  cases t with
  | scanned k => exact ⟨nofun, (List.cons.inj h).2⟩
  | content k =>
    obtain ⟨text, behind⟩ := quote_append_inj (List.cons.inj h).2
    exact ⟨fun _ _ => text, (List.cons.inj behind).2⟩

theorem Token.not_mem_tail (t : Token) (text : List Char) : '\n' ∉ t.tail text := by
  cases t with
  | scanned k => exact List.not_mem_nil
  | content k =>
    rintro (_ | ⟨_, inside⟩)
    exact not_mem_quote _ inside

namespace Listing

theorem simpleLine_append (source : List Char) (l : Lexeme) (r : List Char) :
    simpleLine source l ++ r = number l.span.start ++ '.' :: '.' :: (number l.span.stop ++
      ' ' :: (l.token.name.toList ++ (l.token.tail (shown source l.span) ++ '\n' :: r))) := by
  obtain ⟨t, span⟩ := l
  cases t <;> simp [simpleLine, Token.tail]

theorem simpleLine_append_inj {s t : List Char} {l l' : Lexeme} {u v : List Char}
    (h : simpleLine s l ++ u = simpleLine t l' ++ v) :
    l = l' ∧ (∀ k, l.token = .content k → shown s l.span = shown t l.span) ∧ u = v := by
  rw [simpleLine_append, simpleLine_append] at h
  obtain ⟨start, h⟩ := toDigits_append_inj (by decide) (by decide) (by decide) h
  obtain ⟨stop, h⟩ := toDigits_append_inj (by decide) (by decide) (by decide) (List.cons.inj h).2
  obtain ⟨name, h⟩ := append_inj_of_forall l.token.inWord_of_mem_name l'.token.inWord_of_mem_name
    (l.token.tail_stops _ _) (l'.token.tail_stops _ _) h
  obtain ⟨token, span⟩ := l
  obtain ⟨token', span'⟩ := l'
  obtain rfl : token = token' := Token.name_inj (String.toList_inj.mp name)
  obtain rfl : span = span' := by
    cases span
    cases span'
    simp_all
  obtain ⟨text, behind⟩ := Token.tail_append_inj h
  exact ⟨rfl, text, behind⟩

theorem not_mem_number (n : Nat) : '\n' ∉ number n := fun h =>
  absurd (isAlphanum_of_mem_toDigits (by decide) (by decide) _ h) (by decide)

theorem not_mem_name (t : Token) : '\n' ∉ t.name.toList := fun h =>
  absurd (t.inWord_of_mem_name _ h) (by decide)

theorem count_simpleLine (source : List Char) (l : Lexeme) : (simpleLine source l).count '\n' = 1 := by
  rw [← List.append_nil (simpleLine source l), simpleLine_append]
  simp [List.count_eq_zero_of_not_mem, not_mem_number, not_mem_name, Token.not_mem_tail]

theorem count_simple (source : List Char) (ts : List Lexeme) :
    (simple source ts).count '\n' = ts.length := by
  induction ts with
  | nil => rfl
  | cons l ts ih =>
    rw [simple, List.flatMap_cons, List.count_append, count_simpleLine, List.length_cons, Nat.add_comm]
    exact congrArg (· + 1) ih

theorem simple_inj {s t : List Char} {ts us : List Lexeme} (h : simple s ts = simple t us) :
    ts = us ∧ ∀ l ∈ ts, ∀ k, l.token = .content k → shown s l.span = shown t l.span := by
  have lines := congrArg (List.count '\n') h
  rw [count_simple, count_simple] at lines
  induction ts generalizing us with
  | nil =>
    obtain rfl := List.length_eq_zero_iff.mp lines.symm
    exact ⟨rfl, nofun⟩
  | cons l ts ih =>
    cases us with
    | nil => cases lines
    | cons l' us =>
      obtain ⟨rfl, text, more⟩ := simpleLine_append_inj h
      obtain ⟨rfl, texts⟩ := ih more (Nat.succ.inj lines)
      exact ⟨rfl, List.forall_mem_cons.mpr ⟨text, texts⟩⟩

/-- A listing has one line feed for each token, whatever their texts, and tells its tokens, their
ranges and the texts of those that have one, even where ranges are none of the source. -/
theorem simple_faithful (ts us : List Lexeme) (s t : List Char) :
    (simple s ts).count '\n' = ts.length ∧
      (simple s ts = simple t us →
        ts = us ∧ ∀ l ∈ ts, ∀ k, l.token = .content k → shown s l.span = shown t l.span) :=
  ⟨count_simple s ts, simple_inj⟩

/-- A text that looks like the end of its own line. -/
example : simple "\x22\n".toList [⟨.content .unknown, ⟨0, 2⟩⟩] =
    "0..2 Unknown \x22\x5c\x22\x5cn\x22\n".toList := by
  decide

end Listing

end Offside
