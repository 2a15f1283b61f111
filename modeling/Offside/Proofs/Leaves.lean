import Offside.Settings.Loader

/-!
# Settings by key

A settings tree that holds the two tables is told by the eight values in them (`Holds`). Setting
values in one of its tables gives those values to their keys and leaves all others (`Holds.put`),
wherever in the table they stand and however many there are. What a tree reads as depends on its
eight values alone (`Holds.read_eq`), and it can be read just if each of them can
(`Settings.ofValues_eq_ok_iff`).
-/

namespace Offside

/-- What the last one gives that gives anything. -/
def lastOf {α β : Type} (gives : α → Option β) (l : List α) : Option β := l.reverse.findSome? gives

section
variable {α β : Type} {gives : α → Option β}

@[simp] theorem lastOf_nil : lastOf gives [] = none := rfl

theorem lastOf_cons (a : α) (l : List α) : lastOf gives (a :: l) = (lastOf gives l).or (gives a) := by
  simp [lastOf, List.findSome?_append]

theorem lastOf_filter {p : α → Bool} (h : ∀ a, p a = false → gives a = none) (l : List α) :
    lastOf gives (l.filter p) = lastOf gives l := by
  induction l with
  | nil => rfl
  | cons a l ih =>
    cases hp : p a with
    | true => rw [List.filter_cons_of_pos hp, lastOf_cons, lastOf_cons, ih]
    | false => rw [List.filter_cons_of_neg (by simp [hp]), lastOf_cons, ih, h a hp, Option.or_none]

end

section
variable {ε δ α β : Type} {x : Except ε α}

theorem bind_eq_ok_iff {f : α → Except ε β} {b : β} :
    (x >>= f) = .ok b ↔ ∃ a, x = .ok a ∧ f a = .ok b := by
  cases x with
  | error e => exact ⟨nofun, nofun⟩
  | ok a => exact ⟨fun h => ⟨a, rfl, h⟩, fun ⟨_, e, h⟩ => Except.ok.inj e ▸ h⟩

theorem eq_ok_of_mem_toOption {a : α} (h : a ∈ x.toOption) : x = .ok a := by
  cases x with
  | error e => cases h
  | ok b => exact congrArg Except.ok (Option.some.inj h)

theorem mapError_bind {f : α → Except ε β} {g : ε → δ} :
    (x >>= f).mapError g = x.mapError g >>= fun a => (f a).mapError g := by
  cases x <;> rfl

theorem mapError_eq_ok_iff {f : ε → δ} {a : α} : x.mapError f = .ok a ↔ x = .ok a := by
  cases x with
  | error e => exact ⟨nofun, nofun⟩
  | ok b => exact ⟨fun h => congrArg Except.ok (Except.ok.inj h), fun h => congrArg Except.ok (Except.ok.inj h)⟩

end

/-! ## Lower case -/

def isSmall (c : Char) : Bool := c == '_' || ('a' ≤ c && c ≤ 'z')

theorem bounds_of_isSmall {c : Char} (h : isSmall c = true) : 95 ≤ c.toNat ∧ c.toNat ≤ 122 := by
  simp only [isSmall, Bool.or_eq_true, Bool.and_eq_true, beq_iff_eq, decide_eq_true_eq] at h
  rcases h with rfl | ⟨low, high⟩
  · decide
  · have low : 97 ≤ c.toNat := low
    exact ⟨by omega, high⟩

theorem Lowercase.runs_bounds : ∀ r ∈ runs, r.2.1 < 95 ∨ 122 < r.1 := by decide +kernel

theorem Lowercase.char_of_small {c : Char} (h : isSmall c = true) : char c = [c] := by
  obtain ⟨low, high⟩ := bounds_of_isSmall h
  have plain : c ≠ 'İ' := by
    rintro rfl
    cases h
  rw [char, if_neg plain]
  dsimp only
  split
  · next lo hi step delta found =>
    have around : hi < 95 ∨ 122 < lo := runs_bounds _ (List.mem_of_find?_eq_some found)
    have within := List.find?_some found
    simp only [Bool.and_eq_true, decide_eq_true_eq] at within
    omega
  · rfl

theorem lowercase_of_small {text : List Char} (h : text.all isSmall = true) : lowercase text = text := by
  have goes : ∀ before, Lowercase.go before text = text := by
    induction text with
    | nil => exact fun _ => rfl
    | cons c r ih =>
      rw [List.all_cons, Bool.and_eq_true] at h
      obtain ⟨hc, hr⟩ := h
      have plain : c ≠ 'Σ' := by
        rintro rfl
        cases hc
      intro before
      rw [Lowercase.go, if_neg plain, Lowercase.char_of_small hc, ih hr]
      rfl
  exact goes []

/-! ## Entries of tables -/

namespace Value

def isScalar : Value → Bool
  | scalar .. => true
  | _ => false

def isTable : Value → Bool
  | table .. => true
  | _ => false

def under? (key : String) (v : Value) : Option Value := v.asTable.2.lookup key

theorem lookup_cons_ite (k j : String) (w : Value) (es : List (String × Value)) :
    ((j, w) :: es).lookup k = if k = j then some w else es.lookup k := by
  rw [List.lookup_cons]
  split
  · next h => rw [if_pos (by simpa using h)]
  · next h => rw [if_neg (by simpa using h)]

theorem lookup_insert (key k : String) (v : Value) (es : List (String × Value)) :
    (insert key v es).lookup k = if k = key then some v else es.lookup k := by
  induction es with
  | nil => exact lookup_cons_ite ..
  | cons e es ih =>
    obtain ⟨j, w⟩ := e
    rw [insert]
    by_cases hj : j = key
    · subst hj
      rw [if_pos (beq_self_eq_true j), lookup_cons_ite, lookup_cons_ite]
      split <;> rfl
    · rw [if_neg (by simpa using hj), lookup_cons_ite, lookup_cons_ite, ih]
      by_cases hk : k = key
      · rw [if_pos hk, if_neg (fun e => hj (e.symm.trans hk)), if_pos hk]
      · rw [if_neg hk, if_neg hk]

theorem under?_modifyEntry (key k : String) (start : Value) (f : Value → Value) (v : Value) :
    (modifyEntry key start f v).under? k =
      if k = key then some (f ((v.under? key).getD start)) else v.under? k :=
  lookup_insert key k _ _

end Value

/-! ## Keys -/

inductive Leaf where
  | sameLevel
  | ignoreSpaces
  | crlf
  | commentPrefix
  | maxDepth
  | finalLineBreak
  | format
  | skipTrivia
deriving DecidableEq, Repr

namespace Leaf

def all : List Leaf :=
  [sameLevel, ignoreSpaces, crlf, commentPrefix, maxDepth, finalLineBreak, format, skipTrivia]

def table : Leaf → String
  | format | skipTrivia => "output"
  | _ => "scanner"

def key : Leaf → String
  | sameLevel => "same_level"
  | ignoreSpaces => "ignore_spaces"
  | crlf => "crlf"
  | commentPrefix => "comment_prefix"
  | maxDepth => "max_depth"
  | finalLineBreak => "final_line_break"
  | format => "format"
  | skipTrivia => "skip_trivia"

def name (l : Leaf) : String := l.table ++ "." ++ l.key

def path (l : Leaf) : KeyPath := ⟨l.table, [.inl l.key]⟩

theorem mem_all (l : Leaf) : l ∈ all := by cases l <;> decide

def ofName? (s : String) : Option Leaf := all.find? (·.name == s)

theorem key_inj {l m : Leaf} (h : l.key = m.key) : l = m := by
  have read : ∀ l : Leaf, all.find? (·.key == l.key) = some l := by
    intro l
    cases l <;> rfl
  exact Option.some.inj ((read l).symm.trans (h ▸ read m))

theorem name_of_ofName? {s : String} {l : Leaf} (h : ofName? s = some l) : l.name = s := by
  simpa using List.find?_some h

theorem name_ne_empty (l : Leaf) : l.name ≠ "" := by cases l <;> decide

theorem ofString?_table (l : Leaf) : KeyPath.ofString? l.table = .ok ⟨l.table, []⟩ := by
  cases l <;> rfl

theorem ofString?_name (l : Leaf) : KeyPath.ofString? l.name = .ok l.path := by
  cases l <;> rfl

theorem lowercaseString_table (l : Leaf) : lowercaseString l.table = l.table := by
  rw [lowercaseString, lowercase_of_small, String.ofList_toList]
  cases l <;> decide

theorem lowercaseString_key (l : Leaf) : lowercaseString l.key = l.key := by
  rw [lowercaseString, lowercase_of_small, String.ofList_toList]
  cases l <;> decide

def value? (l : Leaf) (root : Value) : Option Value := (root.under? l.table).bind (Value.under? l.key)

end Leaf

/-! ## Trees -/

def overlay (set given : Leaf → Option Value) (l : Leaf) : Option Value := (set l).or (given l)

theorem overlay_lastOf_cons {α : Type} (gives : Leaf → α → Option Value) (a : α) (l : List α)
    (given : Leaf → Option Value) : overlay (fun k => lastOf (gives k) l) (overlay (gives · a) given) =
      overlay (fun k => lastOf (gives k) (a :: l)) given := by
  funext k
  simp only [overlay, lastOf_cons, Option.or_assoc]

/-- The tree has both tables, and these values in them. -/
structure Holds (root : Value) (given : Leaf → Option Value) : Prop where
  table : ∀ l : Leaf, ∃ o es, root.under? l.table = some (.table o es)
  value : ∀ l : Leaf, l.value? root = given l

def Leaf.inEntry (l : Leaf) (e : String × Value) : Option Value := if l.key = e.1 then some e.2 else none

def Leaf.inTable (l : Leaf) (e : String × Value) : Option Value :=
  if l.table = e.1 then lastOf l.inEntry e.2.asTable.2 else none

def AtLeaf (table : String) (e : String × Value) : Prop :=
  (∃ l ∈ Leaf.all, l.table = table ∧ l.key = e.1) ∧ e.2.isScalar = true

instance (table : String) (e : String × Value) : Decidable (AtLeaf table e) :=
  inferInstanceAs (Decidable (_ ∧ _))

def AtTable (e : String × Value) : Prop :=
  (∃ l ∈ Leaf.all, l.table = e.1) ∧ e.2.isTable = true ∧ ∀ w ∈ e.2.asTable.2, AtLeaf e.1 w

instance (e : String × Value) : Decidable (AtTable e) := inferInstanceAs (Decidable (_ ∧ _ ∧ _))

theorem AtLeaf.cases {t : String} {e : String × Value} (h : AtLeaf t e) :
    ∃ (l : Leaf) (o : Option String) (s : Scalar), e = (l.key, .scalar o s) := by
  obtain ⟨k, v⟩ := e
  obtain ⟨⟨l, -, -, rfl⟩, scalar⟩ := h
  cases v with
  | scalar o s => exact ⟨l, o, s, rfl⟩
  | list | table => cases scalar

theorem AtTable.cases {e : String × Value} (h : AtTable e) :
    ∃ (l : Leaf) (o : Option String) (es : List (String × Value)),
      e = (l.table, .table o es) ∧ ∀ w ∈ es, AtLeaf l.table w := by
  obtain ⟨t, v⟩ := e
  obtain ⟨⟨l, -, rfl⟩, table, plain⟩ := h
  cases v with
  | table o es => exact ⟨l, o, es, rfl, plain⟩
  | scalar | list => cases table

theorem holds_defaults : Holds Loader.defaults (·.value? Loader.defaults) := by
  refine ⟨fun l => ?_, fun _ => rfl⟩
  cases l <;> exact ⟨_, _, rfl⟩

namespace Value

theorem isTable_modifyEntry (key : String) (start : Value) (f : Value → Value) (v : Value) :
    ∃ o es, modifyEntry key start f v = table o es := ⟨_, _, rfl⟩

theorem put_scalar (l : Leaf) (o : Option String) (s : Scalar) (root : Value) :
    put l.key (scalar o s) root = modifyEntry l.key null (fun _ => scalar o s) root := by
  rw [put, l.lowercaseString_key]
  nofun

theorem put_table (l : Leaf) (o : Option String) (es : List (String × Value)) (root : Value) :
    put l.table (table o es) root = modifyEntry l.table emptyTable (putAll es) root := by
  rw [put, l.lowercaseString_table]

theorem putAll_spec {t : String} {es : List (String × Value)} (h : ∀ e ∈ es, AtLeaf t e) {root : Value}
    (isTable : ∃ o given, root = table o given) :
    (∃ o given, putAll es root = table o given) ∧
      ∀ l : Leaf, (putAll es root).under? l.key = (lastOf l.inEntry es).or (root.under? l.key) := by
  induction es generalizing root with
  | nil => exact ⟨isTable, fun _ => rfl⟩
  | cons e es ih =>
    obtain ⟨first, more⟩ := List.forall_mem_cons.mp h
    obtain ⟨m, o, s, rfl⟩ := first.cases
    have step : putAll ((m.key, scalar o s) :: es) root =
        putAll es (modifyEntry m.key null (fun _ => scalar o s) root) := by
      rw [putAll, put_scalar]
    obtain ⟨table, values⟩ := ih more (isTable_modifyEntry m.key null (fun _ => scalar o s) root)
    rw [step]
    refine ⟨table, fun l => ?_⟩
    rw [values l, under?_modifyEntry, lastOf_cons, Option.or_assoc, Leaf.inEntry]
    split <;> rfl

end Value

section
variable {root : Value} {given : Leaf → Option Value}

theorem Holds.put (h : Holds root given) {e : String × Value} (he : AtTable e) :
    Holds (Value.put e.1 e.2 root) (overlay (·.inTable e) given) := by
  obtain ⟨m, o, es, rfl, plain⟩ := he.cases
  obtain ⟨o', old, there⟩ := h.table m
  obtain ⟨⟨o'', new, table⟩, values⟩ := Value.putAll_spec plain ⟨o', old, rfl⟩
  rw [Value.put_table]
  constructor
  · intro l
    rw [Value.under?_modifyEntry, there]
    split
    · exact ⟨_, _, congrArg some table⟩
    · exact h.table l
  · intro l
    rw [Leaf.value?, Value.under?_modifyEntry, there, overlay, Leaf.inTable, ← h.value l, Leaf.value?]
    split
    · next same => rw [same, there]; exact values l
    · rfl

/-- When each step sets some values, a run sets the last of them. -/
theorem Holds.foldlM {m : Type → Type} [Monad m] [LawfulMonad m] {α : Type} {step : Value → α → m Value}
    {gives : Leaf → α → Option Value} {l : List α} (h : Holds root given)
    (steps : ∀ a ∈ l, ∀ {root given}, Holds root given →
      ∃ next, step root a = pure next ∧ Holds next (overlay (gives · a) given)) :
    ∃ last, l.foldlM step root = pure last ∧ Holds last (overlay (fun k => lastOf (gives k) l) given) := by
  induction l generalizing root given with
  | nil => exact ⟨root, rfl, h⟩
  | cons a l ih =>
    obtain ⟨first, more⟩ := List.forall_mem_cons.mp steps
    obtain ⟨next, taken, holds⟩ := first h
    obtain ⟨last, run, holds⟩ := ih holds more
    refine ⟨last, by rw [List.foldlM_cons, taken, pure_bind, run], ?_⟩
    simpa only [overlay_lastOf_cons] using holds

end

/-! ## Reading -/

section
open Settings

def Leaf.readBy {α : Type} (l : Leaf) (read : Value → Except SettingError α) (v : Value) :
    Except SettingError α := readAt (.inl l.table) (readAt (.inl l.key) read) v

/-- The value fits the key, and the settings have what it means. -/
def Leaf.Gives (s : Settings) : Leaf → Value → Prop
  | sameLevel, v => flagOf v = .ok s.scanner.sameLevel
  | ignoreSpaces, v => flagOf v = .ok s.scanner.ignoreSpaces
  | crlf, v => flagOf v = .ok s.scanner.crlf
  | commentPrefix, v => characterOf v = .ok s.scanner.commentMark
  | maxDepth, v => countOf v = .ok s.scanner.maxDepth
  | finalLineBreak, v => finalBreakOf v = .ok s.scanner.finalBreak
  | format, v => formatOf v = .ok s.format
  | skipTrivia, v => flagOf v = .ok s.skipTrivia

end

namespace Settings

/-- Settings from one value for each key. The first that does not fit is reported. -/
def ofValues (raw : Leaf → Value) : Except SettingError Settings := do
  let format ← Leaf.format.readBy formatOf (raw .format)
  let skipTrivia ← Leaf.skipTrivia.readBy flagOf (raw .skipTrivia)
  let commentMark ← Leaf.commentPrefix.readBy characterOf (raw .commentPrefix)
  let crlf ← Leaf.crlf.readBy flagOf (raw .crlf)
  let finalBreak ← Leaf.finalLineBreak.readBy finalBreakOf (raw .finalLineBreak)
  let ignoreSpaces ← Leaf.ignoreSpaces.readBy flagOf (raw .ignoreSpaces)
  let maxDepth ← Leaf.maxDepth.readBy countOf (raw .maxDepth)
  let sameLevel ← Leaf.sameLevel.readBy flagOf (raw .sameLevel)
  return { scanner := { sameLevel, ignoreSpaces, crlf, commentMark, maxDepth, finalBreak }, format, skipTrivia }

theorem readBy_eq_ok_iff {α : Type} {l : Leaf} {read : Value → Except SettingError α} {v : Value} {a : α} :
    l.readBy read v = .ok a ↔ read v = .ok a := mapError_eq_ok_iff.trans mapError_eq_ok_iff

theorem ofValues_eq_ok_iff {raw : Leaf → Value} {s : Settings} :
    ofValues raw = .ok s ↔ ∀ l : Leaf, l.Gives s (raw l) := by
  simp only [ofValues, bind_eq_ok_iff, readBy_eq_ok_iff]
  constructor
  · rintro ⟨_, format, _, skipTrivia, _, commentMark, _, crlf, _, finalBreak, _, ignoreSpaces, _, maxDepth, _,
      sameLevel, made⟩
    obtain rfl := Except.ok.inj made
    intro l
    cases l <;> assumption
  · intro h
    exact ⟨_, h .format, _, h .skipTrivia, _, h .commentPrefix, _, h .crlf, _, h .finalLineBreak, _,
      h .ignoreSpaces, _, h .maxDepth, _, h .sameLevel, rfl⟩

theorem exists_gives {raw : Leaf → Value} (h : ∀ l : Leaf, ∃ s, l.Gives s (raw l)) :
    ∃ s : Settings, ∀ l : Leaf, l.Gives s (raw l) := by
  obtain ⟨s, hs⟩ := Classical.skolem.mp h
  refine ⟨{
    scanner := {
      sameLevel := (s .sameLevel).scanner.sameLevel
      ignoreSpaces := (s .ignoreSpaces).scanner.ignoreSpaces
      crlf := (s .crlf).scanner.crlf
      commentMark := (s .commentPrefix).scanner.commentMark
      maxDepth := (s .maxDepth).scanner.maxDepth
      finalBreak := (s .finalLineBreak).scanner.finalBreak }
    format := (s .format).format
    skipTrivia := (s .skipTrivia).skipTrivia }, fun l => ?_⟩
  have fits := hs l
  cases l <;> exact fits

/-- A comment mark that is left out is one that is set to nothing. -/
theorem optionalField_characterOf (step : String ⊕ Int) (v : Option Value) :
    optionalField characterOf none step v = readAt step characterOf (v.getD .null) := by
  cases v <;> rfl

section
variable {o : Option String} {es : List (String × Value)} {raw : Leaf → Value}

theorem outputOf_eq (h : ∀ l : Leaf, l.table = "output" → es.lookup l.key = some (raw l)) :
    readAt (.inl "output") outputOf (.table o es) = do
      let format ← Leaf.format.readBy formatOf (raw .format)
      let skipTrivia ← Leaf.skipTrivia.readBy flagOf (raw .skipTrivia)
      return (format, skipTrivia) := by
  have format : es.lookup "format" = _ := h .format rfl
  have skipTrivia : es.lookup "skip_trivia" = _ := h .skipTrivia rfl
  simp only [readAt, outputOf, requiredField, format, skipTrivia, mapError_bind]
  rfl

theorem scannerOf_eq
    (h : ∀ l : Leaf, l.table = "scanner" → l ≠ .commentPrefix → es.lookup l.key = some (raw l))
    (mark : (es.lookup "comment_prefix").getD .null = raw .commentPrefix) :
    readAt (.inl "scanner") scannerOf (.table o es) = do
      let commentMark ← Leaf.commentPrefix.readBy characterOf (raw .commentPrefix)
      let crlf ← Leaf.crlf.readBy flagOf (raw .crlf)
      let finalBreak ← Leaf.finalLineBreak.readBy finalBreakOf (raw .finalLineBreak)
      let ignoreSpaces ← Leaf.ignoreSpaces.readBy flagOf (raw .ignoreSpaces)
      let maxDepth ← Leaf.maxDepth.readBy countOf (raw .maxDepth)
      let sameLevel ← Leaf.sameLevel.readBy flagOf (raw .sameLevel)
      return ({ sameLevel, ignoreSpaces, crlf, commentMark, maxDepth, finalBreak } : Config) := by
  have crlf : es.lookup "crlf" = _ := h .crlf rfl nofun
  have finalBreak : es.lookup "final_line_break" = _ := h .finalLineBreak rfl nofun
  have ignoreSpaces : es.lookup "ignore_spaces" = _ := h .ignoreSpaces rfl nofun
  have maxDepth : es.lookup "max_depth" = _ := h .maxDepth rfl nofun
  have sameLevel : es.lookup "same_level" = _ := h .sameLevel rfl nofun
  rw [readAt]
  simp only [scannerOf, optionalField_characterOf, mark, crlf, finalBreak, ignoreSpaces, maxDepth, sameLevel,
    mapError_bind]
  rfl

end

end Settings

section
variable {root : Value} {given : Leaf → Option Value} (h : Holds root given)
include h

theorem Holds.lookup {l : Leaf} {t : String} {o : Option String} {es : List (String × Value)}
    (there : root.under? t = some (.table o es)) (same : l.table = t) : es.lookup l.key = given l := by
  rw [← h.value l, Leaf.value?, same, there]
  rfl

theorem Holds.read_eq (full : ∀ l : Leaf, l ≠ .commentPrefix → (given l).isSome = true) :
    Settings.read root = Settings.ofValues fun l => (given l).getD .null := by
  have plain : ∀ {l : Leaf} {t o es}, root.under? t = some (.table o es) → l.table = t →
      l ≠ .commentPrefix → es.lookup l.key = some ((given l).getD .null) := by
    intro l t o es there same ne
    obtain ⟨v, hv⟩ := Option.isSome_iff_exists.mp (full l ne)
    rw [h.lookup there same, hv]
    rfl
  obtain ⟨o, es, output⟩ := h.table .format
  obtain ⟨o', es', scanner⟩ := h.table .commentPrefix
  have other : ∀ l : Leaf, l.table = "output" → l ≠ .commentPrefix := by
    rintro _ same rfl
    exact absurd same (by decide)
  have first := Settings.outputOf_eq (o := o) fun l same => plain output same (other l same)
  have second := Settings.scannerOf_eq (o := o') (fun l => plain scanner)
    (congrArg (·.getD .null) (h.lookup (l := .commentPrefix) scanner rfl))
  have output : root.asTable.2.lookup "output" = _ := output
  have scanner : root.asTable.2.lookup "scanner" = _ := scanner
  simp only [Settings.read, Settings.requiredField, output, scanner, first, second, bind_assoc, pure_bind,
    Settings.ofValues]

end

end Offside
