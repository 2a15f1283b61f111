import Offside.Scan.Weight

/-!
# Reading the structure alone

A walk asks the scanner at every place and passes over content one character at a time, so it needs
no content tokens.
-/

namespace Offside

theorem lowers_scan_some {cfg : Config} {s t : State} {c d : Cursor} {k : Kind}
    (h : scan cfg cfg.kinds s c = (some k, t, d)) :
    Scan.weight t d.close.rest < Scan.weight s c.rest := by
  have := Scan.lowers_tryScan cfg s c
  unfold scan at h
  generalize tryScan cfg cfg.kinds s c = o at h this
  obtain ⟨v, u, b⟩ := o
  cases v <;> cases h
  exact this

theorem lowers_scan_none {cfg : Config} {s t : State} {c d : Cursor}
    (h : scan cfg cfg.kinds s c = (none, t, d)) :
    Scan.weight t d.rest ≤ Scan.weight s c.rest ∧ c.here.Reaches d.here := by
  have lowers := Scan.lowers_tryScan cfg s c
  have reaches := tryScan_reaches cfg cfg.kinds s c
  unfold scan at h
  generalize tryScan cfg cfg.kinds s c = o at h lowers reaches
  obtain ⟨v, u, b⟩ := o
  cases v <;> cases h
  · exact ⟨lowers, reaches⟩
  · exact ⟨Nat.le_of_lt lowers, reaches⟩

def walk (cfg : Config) (s : State) (c : Cursor) : List Kind :=
  match _h : scan cfg cfg.kinds s c.begin with
  | (some kind, t, d) => kind :: walk cfg t d.close
  | (none, t, d) =>
    if _moved : d.position ≠ c.position then walk cfg t d
    else if _end : d.rest = [] then []
    else walk cfg t (d.advance false)
termination_by (Scan.weight s c.rest, c.rest.length)
decreasing_by
  · have := lowers_scan_some _h
    exact .left _ _ this
  · obtain ⟨le, reaches⟩ := lowers_scan_none _h
    rcases Nat.lt_or_eq_of_le le with h | h
    · exact .left _ _ h
    · exact h ▸ .right _ (reaches.length_lt _moved)
  · refine .left _ _ (Nat.lt_of_lt_of_le (Scan.weight_lt_of_length_lt ?_ (Nat.le_refl _) id)
      (lowers_scan_none _h).1)
    obtain ⟨x, r, e⟩ := List.exists_cons_of_ne_nil _end
    rw [Cursor.rest, Cursor.here_advance]
    exact Scan.next_length_lt (x := x) (by simpa [Cursor.rest] using congrArg List.head? e)

def walkText (cfg : Config) (text : List Char) : List Kind :=
  walk cfg (.initial cfg.maxDepth) (.ofSource text)

end Offside
