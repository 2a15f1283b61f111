/-!
# Places in a text

Offsets count the bytes of a text's UTF-8 form. A `Point` is a place between two characters: the
bytes before it and the characters after it. `Reaches p q` says that reading on from `p` arrives
at `q`; every reading operation moves along it. Cutting a text at an offset succeeds only where
one character ends and the next begins.
-/

namespace Offside

def byteLength : List Char → Nat
  | [] => 0
  | c :: r => c.utf8Size + byteLength r

@[simp] theorem byteLength_nil : byteLength [] = 0 := rfl

@[simp] theorem byteLength_cons (c : Char) (r : List Char) :
    byteLength (c :: r) = c.utf8Size + byteLength r := rfl

@[simp] theorem byteLength_append (u v : List Char) :
    byteLength (u ++ v) = byteLength u + byteLength v := by
  induction u with
  | nil => simp
  | cons c u ih => simp [ih, Nat.add_assoc]

theorem length_le_byteLength (u : List Char) : u.length ≤ byteLength u := by
  induction u with
  | nil => simp
  | cons c u ih => have := c.utf8Size_pos; simp; omega

/-- What follows the first `n` bytes, if a character ends there. -/
def dropBytes? : Nat → List Char → Option (List Char)
  | 0, r => some r
  | _ + 1, [] => none
  | n + 1, c :: r => if c.utf8Size ≤ n + 1 then dropBytes? (n + 1 - c.utf8Size) r else none

/-- The first `n` bytes, if a character ends there. -/
def takeBytes? : Nat → List Char → Option (List Char)
  | 0, _ => some []
  | _ + 1, [] => none
  | n + 1, c :: r =>
    if c.utf8Size ≤ n + 1 then (takeBytes? (n + 1 - c.utf8Size) r).map (c :: ·) else none

/-- The text between two offsets, if they are in order and both lie between characters. -/
def slice? (text : List Char) (start stop : Nat) : Option (List Char) :=
  if start ≤ stop then (dropBytes? start text).bind (takeBytes? (stop - start)) else none

structure Point where
  offset : Nat
  rest : List Char
deriving DecidableEq, Repr

namespace Point

def origin (text : List Char) : Point := ⟨0, text⟩

def seek (limit : Nat) : Nat → List Char → Point
  | o, [] => ⟨o, []⟩
  | o, c :: r => if o + c.utf8Size ≤ limit then seek limit (o + c.utf8Size) r else ⟨o, c :: r⟩

def atOffset (text : List Char) (offset : Nat) : Point := seek offset 0 text

def next (p : Point) : Point :=
  match p.rest with
  | [] => p
  | c :: r => ⟨p.offset + c.utf8Size, r⟩

def past (p : Point) (text rest : List Char) : Point := ⟨p.offset + byteLength text, rest⟩

def Reaches (p q : Point) : Prop := ∃ w, p.rest = w ++ q.rest ∧ q.offset = p.offset + byteLength w

theorem Reaches.refl (p : Point) : p.Reaches p := ⟨[], by simp⟩

theorem Reaches.trans {p q r : Point} : p.Reaches q → q.Reaches r → p.Reaches r
  | ⟨v, hv, ov⟩, ⟨w, hw, ow⟩ => ⟨v ++ w, by simp [hv, hw], by simp [ov, ow, Nat.add_assoc]⟩

theorem reaches_next (p : Point) : p.Reaches p.next := by
  unfold next; split
  · exact .refl p
  · next c r h => exact ⟨[c], by simp [h]⟩

theorem reaches_past {p : Point} {text rest : List Char} (h : p.rest = text ++ rest) :
    p.Reaches (p.past text rest) := ⟨text, h, rfl⟩

theorem seek_reaches (limit o : Nat) (r : List Char) : Reaches ⟨o, r⟩ (seek limit o r) := by
  induction r generalizing o with
  | nil => exact .refl _
  | cons c r ih =>
    unfold seek; split
    · exact Reaches.trans ⟨[c], by simp⟩ (ih _)
    · exact .refl _

theorem Reaches.length_le {p q : Point} (h : p.Reaches q) : q.rest.length ≤ p.rest.length := by
  obtain ⟨w, hw, -⟩ := h; simp [hw]

theorem Reaches.offset_le {p q : Point} (h : p.Reaches q) : p.offset ≤ q.offset := by
  obtain ⟨w, -, hw⟩ := h; omega

/-- Moving to another offset uses up characters. -/
theorem Reaches.length_lt {p q : Point} (h : p.Reaches q) (ne : q.offset ≠ p.offset) :
    q.rest.length < p.rest.length := by
  obtain ⟨w, hw, ho⟩ := h
  cases w with
  | nil => simp at ho; exact absurd ho ne
  | cons c w => rw [hw, List.length_append, List.length_cons]; omega

theorem Reaches.eq_of_offset {p q : Point} (h : p.Reaches q) (e : q.offset = p.offset) : q = p := by
  obtain ⟨w, hw, ho⟩ := h
  cases w with
  | nil => cases p; cases q; simp_all
  | cons c w => have := c.utf8Size_pos; simp at ho; omega

end Point

end Offside
