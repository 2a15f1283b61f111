import Offside.Proofs.Leaves

/-!
# Which layer wins

A loader may be given files and overrides in any order. Building merges the files in the order in
which they were added (`holds_addFile`) and then sets the overrides (`holds_override`), so each key
has the value of its last override, else of the last file that sets it, else the default
(`Loader.raw`), and only this value is read (`build_precedence`).
-/

namespace Offside

/-! ## Calls of a loader -/

namespace Loader

inductive Call where
  | localFile (directory : String)
  | file (path : String)
  | optionalFile (path : String)
  | assignment (text : String)
  | override (key : String) (s : Scalar)
  | format (f : Format)

def apply (l : Loader) : Call → Except LoadError Loader
  | .localFile directory => .ok (l.withLocalFile directory)
  | .file path => .ok (l.withFile path true)
  | .optionalFile path => .ok (l.withFile path false)
  | .assignment text => l.withAssignment text
  | .override key s => l.withOverride key s
  | .format f => l.withFormat f

def ofCalls (calls : List Call) : Except LoadError Loader := calls.foldlM apply {}

namespace Call

def layer? : Call → Option SettingsFile
  | localFile directory => some ⟨Path.join directory localName, false⟩
  | file path => some ⟨path, true⟩
  | optionalFile path => some ⟨path, false⟩
  | _ => none

def sides? (text : String) : Option (String × String) :=
  match text.toList.dropWhile (· != '=') with
  | [] => none
  | _ :: value =>
    some (String.ofList (trim (text.toList.takeWhile (· != '='))), String.ofList (trim value))

def override? : Call → Option (Leaf × Scalar)
  | assignment text => (sides? text).bind fun (key, value) => (Leaf.ofName? key).map (·, .text value)
  | override key s => (Leaf.ofName? key).map (·, s)
  | format f => some (.format, .text f.name)
  | _ => none

theorem layer?_of_override {c : Call} {o : Leaf × Scalar} (h : c.override? = some o) : c.layer? = none := by
  cases c with
  | localFile | file | optionalFile => cases h
  | assignment | override | format => rfl

end Call

/-! ## What the calls give -/

/-- The file can be read or need not be there, and holds nothing but scalars at keys. -/
def HoldsKeys (files : Files) (f : SettingsFile) : Prop :=
  ∃ es ∈ (entries files f).toOption, ∀ e ∈ es, AtTable e

instance (files : Files) (f : SettingsFile) : Decidable (HoldsKeys files f) :=
  inferInstanceAs (Decidable (∃ es ∈ (entries files f).toOption, _))

def Call.Plain (files : Files) (c : Call) : Prop :=
  (∃ f ∈ c.layer?, HoldsKeys files f) ∨ c.override?.isSome = true

instance (files : Files) (c : Call) : Decidable (c.Plain files) := inferInstanceAs (Decidable (_ ∨ _))

def inFile (files : Files) (l : Leaf) (f : SettingsFile) : Option Value :=
  match entries files f with
  | .ok es => lastOf l.inTable es
  | .error _ => none

def inOverride (l : Leaf) (o : Leaf × Scalar) : Option Value := if o.1 = l then some (.ofScalar o.2) else none

/-- The value that counts for the key: that of its last override, else that of the last file that sets
it, else the default. Only the comment mark has none, and is nothing then. -/
def raw (files : Files) (calls : List Call) (l : Leaf) : Value :=
  ((lastOf (inOverride l) (calls.filterMap Call.override?)).or
    ((lastOf (inFile files l) (calls.filterMap Call.layer?)).or (l.value? defaults))).getD .null

/-! ## Collecting -/

theorem withOverride_name (l : Loader) (k : Leaf) (s : Scalar) :
    l.withOverride k.name s = .ok { l with overrides := l.overrides ++ [(k.path, .ofScalar s)] } := by
  rw [withOverride, k.ofString?_name]

theorem withAssignment_eq {text key value : String} (h : Call.sides? text = some (key, value)) (ne : key ≠ "")
    (l : Loader) : l.withAssignment text = l.withOverride key (.text value) := by
  cases behind : text.toList.dropWhile (· != '=') with
  | nil => simp [Call.sides?, behind] at h
  | cons _ value =>
    simp only [Call.sides?, behind] at h
    obtain ⟨rfl, rfl⟩ := Prod.mk.inj (Option.some.inj h)
    have given : (trim (text.toList.takeWhile (· != '='))).isEmpty = false := by
      rw [List.isEmpty_eq_false_iff]
      intro none
      exact ne (by rw [none])
    simp [withAssignment, behind, given]

theorem apply_of_override {c : Call} {k : Leaf} {s : Scalar} (h : c.override? = some (k, s)) (l : Loader) :
    l.apply c = .ok { l with overrides := l.overrides ++ [(k.path, .ofScalar s)] } := by
  rw [← withOverride_name]
  cases c with
  | localFile | file | optionalFile => cases h
  | assignment text =>
    obtain ⟨⟨key, value⟩, sides, named⟩ := Option.bind_eq_some_iff.mp h
    obtain ⟨k', hk, e⟩ := Option.map_eq_some_iff.mp named
    obtain ⟨rfl, rfl⟩ := Prod.mk.inj e
    obtain rfl := Leaf.name_of_ofName? hk
    exact withAssignment_eq sides k'.name_ne_empty l
  | override key s =>
    obtain ⟨k', hk, e⟩ := Option.map_eq_some_iff.mp h
    obtain ⟨rfl, rfl⟩ := Prod.mk.inj e
    obtain rfl := Leaf.name_of_ofName? hk
    rfl
  | format f =>
    cases h
    rfl

theorem apply_of_plain {files : Files} {c : Call} (plain : c.Plain files) (l : Loader) :
    l.apply c = .ok ⟨l.files ++ c.layer?.toList,
      l.overrides ++ c.override?.toList.map fun o => (o.1.path, .ofScalar o.2)⟩ := by
  rcases plain with ⟨f, hf, -⟩ | overrides
  · cases c <;> cases hf <;> simp [apply, withLocalFile, withFile, Call.layer?, Call.override?]
  · obtain ⟨⟨k, s⟩, ho⟩ := Option.isSome_iff_exists.mp overrides
    rw [apply_of_override ho, Call.layer?_of_override ho, ho, Option.toList_none, List.append_nil]
    rfl

theorem ofCalls_eq {files : Files} {calls : List Call} (plain : ∀ c ∈ calls, c.Plain files) :
    ofCalls calls = .ok
      ⟨calls.filterMap Call.layer?,
        (calls.filterMap Call.override?).map fun o => (o.1.path, .ofScalar o.2)⟩ := by
  have goes : ∀ l : Loader, calls.foldlM apply l = .ok
      ⟨l.files ++ calls.filterMap Call.layer?,
        l.overrides ++ (calls.filterMap Call.override?).map fun o => (o.1.path, .ofScalar o.2)⟩ := by
    induction calls with
    | nil =>
      intro l
      simp only [List.filterMap_nil, List.map_nil, List.append_nil]
      rfl
    | cons c calls ih =>
      obtain ⟨first, more⟩ := List.forall_mem_cons.mp plain
      intro l
      rw [List.foldlM_cons, apply_of_plain first]
      refine (ih more _).trans ?_
      cases hl : c.layer? <;> cases ho : c.override? <;> simp [hl, ho]
  exact goes {}

/-! ## Building -/

section
variable {files : Files} {root : Value} {given : Leaf → Option Value}

theorem layerEntry?_eq {e : String × Value} (he : AtTable e) (root : Value) :
    Value.layerEntry? root e = some (Value.put e.1 e.2 root) := by
  obtain ⟨l, o, es, rfl, -⟩ := he.cases
  simp only [Value.layerEntry?, l.ofString?_table]
  rfl

theorem holds_layer (h : Holds root given) {es : List (String × Value)} (plain : ∀ e ∈ es, AtTable e) :
    ∃ next, Value.layer? es root = some next ∧ Holds next (overlay (fun l => lastOf l.inTable es) given) :=
  h.foldlM fun e he _ _ h => ⟨_, layerEntry?_eq (plain e he) _, h.put (plain e he)⟩

theorem holds_addFile (h : Holds root given) {f : SettingsFile} (hf : HoldsKeys files f) :
    ∃ next, addFile files root f = .ok next ∧ Holds next (overlay (inFile files · f) given) := by
  obtain ⟨es, read, plain⟩ := hf
  have read := eq_ok_of_mem_toOption read
  obtain ⟨next, layered, holds⟩ := holds_layer h plain
  refine ⟨next, ?_, ?_⟩
  · simp only [addFile, read]
    exact congrArg placed layered
  · simpa only [inFile, read] using holds

/-- An override is a layer of one value. -/
theorem set?_path (h : Holds root given) (k : Leaf) (s : Scalar) : Value.set? k.path (.ofScalar s) root =
    some (Value.put k.table (.table none [(k.key, .ofScalar s)]) root) := by
  obtain ⟨o, es, there⟩ := h.table k
  have there : root.asTable.2.lookup k.table = some (.table o es) := there
  simp only [Value.set?, Leaf.path, Value.setAt?, Value.modifyEntry?, k.lowercaseString_table,
    Value.put_table, Value.modifyEntry, there, Option.getD_some, Option.map_some, Value.putAll]

theorem atTable_override (o : Leaf × Scalar) :
    AtTable (o.1.table, .table none [(o.1.key, .ofScalar o.2)]) := by
  refine ⟨⟨o.1, o.1.mem_all, rfl⟩, rfl, fun w hw => ?_⟩
  obtain rfl := List.mem_singleton.mp hw
  exact ⟨⟨o.1, o.1.mem_all, rfl, rfl⟩, rfl⟩

theorem inTable_override (l : Leaf) (o : Leaf × Scalar) :
    l.inTable (o.1.table, .table none [(o.1.key, .ofScalar o.2)]) = inOverride l o := by
  by_cases same : o.1 = l
  · subst same
    simp [Leaf.inTable, Leaf.inEntry, inOverride, Value.asTable, lastOf_cons]
  · have other : ¬ l.key = o.1.key := fun e => same (Leaf.key_inj e).symm
    simp [Leaf.inTable, Leaf.inEntry, inOverride, Value.asTable, lastOf_cons, same, other]

theorem holds_override (h : Holds root given) (o : Leaf × Scalar) :
    ∃ next, placed (Value.set? o.1.path (.ofScalar o.2) root) = .ok next ∧
      Holds next (overlay (inOverride · o) given) := by
  refine ⟨_, congrArg placed (set?_path h o.1 o.2), ?_⟩
  simpa only [inTable_override] using h.put (atTable_override o)

end

theorem holds_tree {files : Files} {fs : List SettingsFile} (hf : ∀ f ∈ fs, HoldsKeys files f)
    (os : List (Leaf × Scalar)) :
    ∃ root, tree files ⟨fs, os.map fun o => (o.1.path, .ofScalar o.2)⟩ = .ok root ∧
      Holds root (overlay (fun l => lastOf (inOverride l) os)
        (overlay (fun l => lastOf (inFile files l) fs) (·.value? defaults))) := by
  have adds : ∀ f ∈ fs, ∀ {root given}, Holds root given →
      ∃ next, addFile files root f = .ok next ∧ Holds next (overlay (inFile files · f) given) :=
    fun f h _ _ holds => holds_addFile holds (hf f h)
  obtain ⟨merged, added, holds⟩ := holds_defaults.foldlM adds
  obtain ⟨root, set, holds⟩ := holds.foldlM fun o (_ : o ∈ os) _ _ holds => holds_override holds o
  refine ⟨root, ?_, holds⟩
  rw [tree, added, pure_bind, List.foldlM_map]
  exact set

theorem build_eq {files : Files} {calls : List Call} (plain : ∀ c ∈ calls, c.Plain files) :
    ∃ l, ofCalls calls = .ok l ∧
      l.build files = (Settings.ofValues (raw files calls)).mapError .setting := by
  have hf : ∀ f ∈ calls.filterMap Call.layer?, HoldsKeys files f := by
    intro f hf
    obtain ⟨c, hc, added⟩ := List.mem_filterMap.mp hf
    rcases plain c hc with ⟨f', added', holds⟩ | overrides
    · exact Option.some.inj (added'.symm.trans added) ▸ holds
    · obtain ⟨o, overridden⟩ := Option.isSome_iff_exists.mp overrides
      rw [Call.layer?_of_override overridden] at added
      cases added
  obtain ⟨root, built, holds⟩ := holds_tree hf (calls.filterMap Call.override?)
  have full : ∀ l : Leaf, l ≠ .commentPrefix → (l.value? defaults).isSome = true := by
    intro l ne
    cases l with
    | commentPrefix => exact absurd rfl ne
    | _ => rfl
  refine ⟨_, ofCalls_eq plain, ?_⟩
  have read := holds.read_eq fun l ne => by simp [overlay, full l ne]
  rw [build, built]
  exact congrArg (·.mapError LoadError.setting) read

/-- Files and overrides count apart, and overrides of different keys do. -/
theorem raw_congr (files : Files) {calls calls' : List Call}
    (layers : calls'.filterMap Call.layer? = calls.filterMap Call.layer?)
    (overrides : ∀ l : Leaf, (calls'.filterMap Call.override?).filter (·.1 == l) =
      (calls.filterMap Call.override?).filter (·.1 == l)) : raw files calls' = raw files calls := by
  funext l
  have other : ∀ o : Leaf × Scalar, (o.1 == l) = false → inOverride l o = none := by
    intro o ho
    exact if_neg (by simpa using ho)
  rw [raw, raw, layers, ← lastOf_filter other, overrides l, lastOf_filter other]

/-- Settings come from eight values, whatever the calls in between: for each key its last override, else
the value in the last file that sets it, else the default. They can be built just if these eight fit
their keys, and then they are what these mean, whatever else is set below them. So calls may change
their order as long as the files keep theirs and the overrides of each key keep theirs. -/
theorem build_precedence {files : Files} {calls : List Call} (plain : ∀ c ∈ calls, c.Plain files) :
    ∃ l, ofCalls calls = .ok l ∧
      l.build files = (Settings.ofValues (raw files calls)).mapError .setting ∧
      (∀ s, l.build files = .ok s ↔ ∀ k : Leaf, k.Gives s (raw files calls k)) ∧
      ((∃ s, l.build files = .ok s) ↔ ∀ k : Leaf, ∃ s, k.Gives s (raw files calls k)) ∧
      ∀ calls', calls'.Perm calls → calls'.filterMap Call.layer? = calls.filterMap Call.layer? →
        (∀ k : Leaf, (calls'.filterMap Call.override?).filter (·.1 == k) =
          (calls.filterMap Call.override?).filter (·.1 == k)) →
        ∃ l', ofCalls calls' = .ok l' ∧ l'.build files = l.build files := by
  obtain ⟨l, made, built⟩ := build_eq plain
  have exact : ∀ s, l.build files = .ok s ↔ ∀ k : Leaf, k.Gives s (raw files calls k) := by
    intro s
    rw [built, mapError_eq_ok_iff, Settings.ofValues_eq_ok_iff]
  refine ⟨l, made, built, exact, ?_, ?_⟩
  · simp only [exact]
    exact ⟨fun ⟨s, h⟩ k => ⟨s, h k⟩, Settings.exists_gives⟩
  · intro calls' perm layers overrides
    have plain' : ∀ c ∈ calls', c.Plain files := fun c hc => plain c (perm.mem_iff.mp hc)
    obtain ⟨l', made', built'⟩ := build_eq plain'
    exact ⟨l', made', by rw [built', built, raw_congr files layers overrides]⟩

theorem build_precedence_overridden :
    let files : Files := fun path =>
      if path = "a.toml" then .file "[scanner]\nmax_depth = \x22deep\x22\ncrlf = false\n".toUTF8 else .missing
    let calls : List Call :=
      [.override "scanner.max_depth" (.int 3), .localFile ".", .file "a.toml",
        .assignment "output.format = structure"]
    (∀ c ∈ calls, c.Plain files) ∧ ∃ l, ofCalls calls = .ok l ∧
      (l.build files).toOption = some { scanner := { crlf := false, maxDepth := 3 }, format := .kinds } := by
  intro files calls
  have plain : ∀ c ∈ calls, c.Plain files := by decide +kernel
  obtain ⟨l, made, built, -⟩ := build_precedence plain
  refine ⟨plain, l, made, ?_⟩
  rw [built]
  decide +kernel

end Loader

end Offside
