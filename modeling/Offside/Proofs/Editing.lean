import Offside.Proofs.CheckedEdit

/-!
# Documents stay exact under editing

A document is `Exact` if its output is that of lexing its source. An edit keeps it so, and so does
every sequence of edits, of which some may be rejected (`Exact.edited`). `edited_exact` says what
every further edit does to the document that a sequence of edits has led to.
-/

namespace Offside

structure Edit where
  start : Nat
  stop : Nat
  replacement : List Char
deriving DecidableEq, Repr

namespace Document

def applied (doc : Document) (e : Edit) : Document :=
  match doc.edit e.start e.stop e.replacement with
  | .ok (next, _) => next
  | .error _ => doc

def edited (doc : Document) (es : List Edit) : Document := es.foldl applied doc

def Exact (cfg : Config) (doc : Document) : Prop := doc = .ofSource doc.source cfg

variable {cfg : Config} {doc : Document}

theorem Exact.edit (h : doc.Exact cfg) {before replaced behind : List Char} (replacement : List Char)
    (hs : doc.source = before ++ replaced ++ behind) :
    ∃ counts, doc.edit (byteLength before) (byteLength (before ++ replaced)) replacement =
      .ok (.ofSource (before ++ replacement ++ behind) cfg, counts) := by
  obtain rfl : doc = .ofSource (before ++ replaced ++ behind) cfg := h.trans (by rw [hs])
  obtain ⟨p, hp, last, le⟩ :=
    Output.lastCheckpoint?_tokenize (before ++ replaced ++ behind) cfg (byteLength before)
  have parts := cut_eq_ok_iff.mpr ⟨replaced, hs, rfl, rfl⟩
  have lexed := relex_eq cfg before replaced replacement behind hp le
  rw [byteLength_append before replacement] at lexed
  simp only [Document.edit, parts, Except.map]
  simp only [ofSource, last, lexed]
  exact ⟨_, rfl⟩

theorem edit_eq_error_iff {start stop : Nat} {replacement : List Char} :
    (∃ why, doc.edit start stop replacement = .error why) ↔
      stop < start ∨ byteLength doc.source < stop ∨ ¬ IsBoundary start doc.source ∨
        ¬ IsBoundary stop doc.source := by
  rw [← cut_eq_error_iff, Document.edit]
  cases cut start stop doc.source with
  | error why => simp [Except.map]
  | ok parts => simp [Except.map]

theorem Exact.of_edit (h : doc.Exact cfg) {start stop : Nat} {replacement : List Char} {next : Document}
    {counts : EditCounts} (hok : doc.edit start stop replacement = .ok (next, counts)) :
    ∃ before replaced behind, doc.source = before ++ replaced ++ behind ∧ byteLength before = start ∧
      byteLength (before ++ replaced) = stop ∧
      next = .ofSource (before ++ replacement ++ behind) cfg := by
  cases hc : cut start stop doc.source with
  | error why => rw [Document.edit, hc] at hok; cases hok
  | ok parts =>
    obtain ⟨before, behind⟩ := parts
    obtain ⟨replaced, hs, rfl, rfl⟩ := cut_eq_ok_iff.mp hc
    obtain ⟨counts', he⟩ := h.edit replacement hs
    rw [he] at hok
    cases hok
    exact ⟨before, replaced, behind, hs, rfl, rfl, rfl⟩

theorem exact_ofSource (source : List Char) (cfg : Config) : (ofSource source cfg).Exact cfg := rfl

theorem Exact.output_eq (h : doc.Exact cfg) : doc.output = tokenize doc.source cfg :=
  congrArg Document.output h

theorem Exact.inOrder (h : doc.Exact cfg) : doc.output.InOrder := by
  rw [h.output_eq]
  exact Output.inOrder_tokenize doc.source cfg

theorem Exact.next (h : doc.Exact cfg) {start stop : Nat} {replacement : List Char} {next : Document}
    {counts : EditCounts} (hok : doc.edit start stop replacement = .ok (next, counts)) :
    next.Exact cfg := by
  obtain ⟨_, _, _, -, -, -, rfl⟩ := h.of_edit hok
  exact exact_ofSource _ cfg

theorem Exact.applied (h : doc.Exact cfg) (e : Edit) : (doc.applied e).Exact cfg := by
  unfold Document.applied
  split
  · next next counts hok =>
    obtain ⟨_, _, _, -, -, -, rfl⟩ := h.of_edit hok
    exact exact_ofSource _ cfg
  · exact h

theorem Exact.edited (es : List Edit) (h : doc.Exact cfg) : (doc.edited es).Exact cfg := by
  induction es generalizing doc with
  | nil => exact h
  | cons e es ih => exact ih (h.applied e)

/-- Whatever edits came before, the output of a document is that of lexing its source. The next
edit is rejected exactly if its range is not a range between characters of the source, and then
changes nothing; else it puts the replacement in the place of the range, and the output is that of
the new source. On its way no index is out of range and no difference falls below zero. -/
theorem edited_exact (source : List Char) (cfg : Config) (es : List Edit) (e : Edit) :
    let doc := (ofSource source cfg).edited es
    doc.config = cfg ∧ doc.output = tokenize doc.source cfg ∧
      doc.output.checkpoints.Pairwise (·.offset < ·.offset) ∧
      ((∃ why, doc.edit e.start e.stop e.replacement = .error why) ↔
        e.stop < e.start ∨ byteLength doc.source < e.stop ∨ ¬ IsBoundary e.start doc.source ∨
          ¬ IsBoundary e.stop doc.source) ∧
      (∀ why, doc.edit e.start e.stop e.replacement = .error why → doc.applied e = doc) ∧
      (∀ next counts, doc.edit e.start e.stop e.replacement = .ok (next, counts) →
        ∃ before replaced behind, doc.source = before ++ replaced ++ behind ∧
          byteLength before = e.start ∧ byteLength (before ++ replaced) = e.stop ∧
          next.source = before ++ e.replacement ++ behind ∧ next.config = cfg ∧
          next.output = tokenize next.source cfg ∧ doc.applied e = next) ∧
      doc.editChecked e.start e.stop e.replacement = some (doc.edit e.start e.stop e.replacement) := by
  intro doc
  have h : doc.Exact cfg := (exact_ofSource source cfg).edited es
  have output : doc.output = tokenize doc.source cfg := congrArg Document.output h
  have order : doc.output.InOrder := output ▸ Output.inOrder_tokenize doc.source cfg
  refine ⟨congrArg Document.config h, output, order.ordered, edit_eq_error_iff, fun why he => ?_,
    fun next counts he => ?_, editChecked_eq order e.start e.stop e.replacement⟩
  · rw [Document.applied, he]
  · obtain ⟨before, replaced, behind, hs, start, stop, rfl⟩ := h.of_edit he
    exact ⟨before, replaced, behind, hs, start, stop, rfl, rfl, rfl, by rw [Document.applied, he]⟩

end Document

end Offside
