import ForeignKey.Proofs.Record
import ForeignKey.Proofs.Value.Identity
import ForeignKey.Proofs.Yaml.UniqueKeys

/-!
# The grammar of rule sets

Which trees are rule sets, and which rule set a tree is: a form for each of the structures, written down
without the readers. Main statement: a text whose tree is known is read as a rule set exactly when the
tree has the form of that rule set, so every form is accepted, nothing else is, and all texts come out as
they stand in the tree.
-/

namespace ForeignKey

/-! ## Forms -/

/-- A base type is given by its name, alone or as the only key of an object, with null under it. -/
inductive BaseType.HasForm (b : BaseType) : Value → Prop where
  | name : HasForm b (.string b.text)
  | object : HasForm b (.object [(b.text, .null)])

/-- Reference paths are given by one text, or by a list of texts that is not empty. -/
inductive ReferencePaths.HasForm : ReferencePaths → Value → Prop where
  | single (raw : String) : HasForm (.single raw) (.string raw)
  | alternatives {raws : List String} (h : raws ≠ []) :
    HasForm (.alternatives raws) (.array (raws.map .string))

/-- The entries of a binding: no others than the three fields, of which the base type may be left out. -/
structure Binding.HasEntries (b : Binding) (entries : List (String × Value)) : Prop where
  known : ∀ entry ∈ entries, entry.1 ∈ ["field", "type", "fk"]
  field : Value.lookup "field" entries = some (.string b.field)
  base : (Value.lookup "type" entries = none ∧ b.base = .string) ∨
    ∃ v, Value.lookup "type" entries = some v ∧ b.base.HasForm v
  paths : ∃ v, Value.lookup "fk" entries = some v ∧ b.paths.HasForm v

/-- A binding is given by an object, or by the list of its three fields. -/
inductive Binding.HasForm (b : Binding) : Value → Prop where
  | object {entries : List (String × Value)} (h : b.HasEntries entries) : HasForm b (.object entries)
  | array {base paths : Value} (hbase : b.base.HasForm base) (hpaths : b.paths.HasForm paths) :
    HasForm b (.array [.string b.field, base, paths])

/-- The entries of a rule set: only the list of its bindings, which may be left out. -/
structure RuleSet.HasEntries (rules : RuleSet) (entries : List (String × Value)) : Prop where
  known : ∀ entry ∈ entries, entry.1 = "references"
  references : (Value.lookup "references" entries = none ∧ rules.references = []) ∨
    ∃ items, Value.lookup "references" entries = some (.array items) ∧
      List.Forall₂ Binding.HasForm rules.references items

/-- A rule set is given by an object. -/
def RuleSet.HasForm (rules : RuleSet) (v : Value) : Prop :=
  ∃ entries, v = .object entries ∧ rules.HasEntries entries

/-! ## Parts of a binding -/

theorem BaseType.lookup_choices_iff {name : String} {b : BaseType} :
    choices.lookup name = some b ↔ name = b.text := by
  by_cases hstring : name = "string"
  · subst hstring
    cases b <;> decide
  · by_cases hnumber : name = "number"
    · subst hnumber
      cases b <;> decide
    · have hnone : choices.lookup name = none := by simp [choices, hstring, hnumber]
      rw [hnone]
      cases b <;> simp [BaseType.text, hstring, hnumber]

theorem BaseType.ofValue_eq_ok_iff {v : Value} {b : BaseType} : ofValue v = .ok b ↔ b.HasForm v := by
  rw [ofValue, readChoice_eq_ok_iff]
  simp only [lookup_choices_iff]
  constructor
  · rintro ⟨_, rfl, rfl | rfl⟩
    · exact .name
    · exact .object
  · rintro (_ | _)
    · exact ⟨_, rfl, .inl rfl⟩
    · exact ⟨_, rfl, .inr rfl⟩

theorem ReferencePaths.readEntry_eq_ok_iff {v : Value} {raw : String} :
    readEntry v = .ok raw ↔ .string raw = v := by
  cases v <;> simp [readEntry, eq_comm]

theorem ReferencePaths.ofValue_eq_ok_iff {v : Value} {paths : ReferencePaths} :
    ofValue v = .ok paths ↔ paths.HasForm v := by
  constructor
  · intro h
    cases v with
    | string raw =>
      cases h
      exact .single raw
    | array items =>
      cases items with
      | nil => cases h
      | cons first rest =>
        obtain ⟨raws, hraws, rfl⟩ := Reading.map_eq_ok_iff.mp h
        simp only [mapM_eq_ok_iff, readEntry_eq_ok_iff] at hraws
        have heq : raws.map .string = first :: rest := by
          rwa [← List.forall₂_eq_eq_eq, List.forall₂_map_left_iff]
        rw [← heq]
        refine .alternatives ?_
        rintro rfl
        cases heq
    | _ => cases h
  · intro h
    cases h with
    | single raw => rfl
    | @alternatives raws h =>
      cases raws with
      | nil => exact absurd rfl h
      | cons raw rest =>
        refine Reading.map_eq_ok_iff.mpr ⟨raw :: rest, mapM_eq_ok_iff.mpr ?_, rfl⟩
        simp only [readEntry_eq_ok_iff]
        rw [← List.forall₂_map_left_iff (f := Value.string), List.forall₂_eq_eq_eq]

/-- Why reference paths are refused: the list is empty, one of its entries is no text, or they are
neither a text nor a list. -/
theorem ReferencePaths.error_cases {v : Value} {e : ShapeError} (h : ofValue v = .error e) :
    e = .noPaths ∨ (∃ items item, v = .array items ∧ item ∈ items ∧ e = .pathNotText item) ∨
      e = .notPaths v := by
  cases v with
  | string raw => cases h
  | array items =>
    cases items with
    | nil =>
      cases h
      exact .inl rfl
    | cons first rest =>
      have hitems : (first :: rest).mapM readEntry = .error e := Reading.map_eq_error_iff.mp h
      obtain ⟨item, hitem, hbad⟩ := (mapM_eq_error_iff.mp hitems).exists_bad
      have hentry : e = .pathNotText item := by
        cases item <;> cases hbad <;> rfl
      exact .inr (.inl ⟨first :: rest, item, rfl, hitem, hentry⟩)
  | _ =>
    cases h
    exact .inr (.inr rfl)

/-! ## Bindings -/

namespace Binding

variable {b : Binding} {entries : List (String × Value)}

/-- What the fields of a binding are got as. -/
structure Gets (b : Binding) (entries : List (String × Value)) : Prop where
  field : fieldField.get entries = .ok b.field
  base : baseField.get entries = .ok b.base
  paths : pathsField.get entries = .ok b.paths

theorem ofValue_eq_ok_iff_gets {v : Value} :
    ofValue v = .ok b ↔ ∃ entries, shape.entries v = .ok entries ∧ b.Gets entries := by
  rw [ofValue, Reading.bind_eq_ok_iff]
  refine exists_congr fun entries => and_congr Iff.rfl ?_
  simp only [Reading.bind_eq_ok_iff]
  constructor
  · rintro ⟨_, hfield, _, hbase, _, hpaths, h⟩
    cases h
    exact ⟨hfield, hbase, hpaths⟩
  · rintro ⟨hfield, hbase, hpaths⟩
    exact ⟨_, hfield, _, hbase, _, hpaths, rfl⟩

theorem gets_iff :
    b.Gets entries ↔
      Value.lookup "field" entries = some (.string b.field) ∧
      ((Value.lookup "type" entries = none ∧ b.base = .string) ∨
        ∃ v, Value.lookup "type" entries = some v ∧ b.base.HasForm v) ∧
      ∃ v, Value.lookup "fk" entries = some v ∧ b.paths.HasForm v := by
  have hfield : fieldField.get entries = .ok b.field ↔
      Value.lookup "field" entries = some (.string b.field) := by
    rw [fieldField, Field.get_required_iff]
    simp [readText_eq_ok_iff]
  have hbase : baseField.get entries = .ok b.base ↔
      (Value.lookup "type" entries = none ∧ b.base = .string) ∨
        ∃ v, Value.lookup "type" entries = some v ∧ b.base.HasForm v := by
    rw [baseField, Field.get_defaulted_iff]
    simp only [BaseType.ofValue_eq_ok_iff]
  have hpaths : pathsField.get entries = .ok b.paths ↔
      ∃ v, Value.lookup "fk" entries = some v ∧ b.paths.HasForm v := by
    rw [pathsField, Field.get_required_iff]
    simp only [ReferencePaths.ofValue_eq_ok_iff]
  rw [← hfield, ← hbase, ← hpaths]
  exact ⟨fun h => ⟨h.field, h.base, h.paths⟩, fun h => ⟨h.1, h.2.1, h.2.2⟩⟩

theorem mem_fields_iff {field : FieldShape} :
    field ∈ shape.fields ↔
      field = fieldField.shape ∨ field = baseField.shape ∨ field = pathsField.shape := by
  simp [shape]

/-- The fields of a binding that can be got all pass. -/
theorem Gets.passes (h : b.Gets entries) : ∀ field ∈ shape.fields, field.Passes entries := by
  intro field hfield
  rcases mem_fields_iff.mp hfield with rfl | rfl | rfl
  · exact Field.passes_shape_iff.mpr ⟨_, h.field⟩
  · exact Field.passes_shape_iff.mpr ⟨_, h.base⟩
  · exact Field.passes_shape_iff.mpr ⟨_, h.paths⟩

theorem ofValue_object_eq_ok_iff (hkeys : (entries.map Prod.fst).Nodup) :
    ofValue (.object entries) = .ok b ↔ b.HasEntries entries := by
  rw [ofValue_eq_ok_iff_gets]
  simp only [RecordShape.entries_object_eq_ok_iff (r := shape) (by decide) rfl hkeys]
  constructor
  · rintro ⟨_, ⟨rfl, hknown, -⟩, hgets⟩
    obtain ⟨hfield, hbase, hpaths⟩ := gets_iff.mp hgets
    exact ⟨hknown, hfield, hbase, hpaths⟩
  · intro h
    have hgets : b.Gets entries := gets_iff.mpr ⟨h.field, h.base, h.paths⟩
    exact ⟨entries, ⟨rfl, h.known, hgets.passes⟩, hgets⟩

/-- The entries that the array form stands for. -/
theorem hasEntries_fields_iff {field base paths : Value} :
    b.HasEntries [("field", field), ("type", base), ("fk", paths)] ↔
      field = .string b.field ∧ b.base.HasForm base ∧ b.paths.HasForm paths := by
  constructor
  · rintro ⟨-, hfield, hbase, hpaths⟩
    simp [Value.lookup] at hfield hbase hpaths
    exact ⟨hfield, hbase, hpaths⟩
  · rintro ⟨rfl, hbase, hpaths⟩
    exact ⟨by simp, rfl, .inr ⟨base, rfl, hbase⟩, paths, rfl, hpaths⟩

/-- Only an array of three elements is a binding. -/
theorem length_of_entries {items : List Value} (h : shape.entries (.array items) = .ok entries) :
    items.length = 3 := by
  obtain ⟨hshort, hlength⟩ := RecordShape.length_of_entries_array h
  have hlast : 3 ≤ items.length := by
    by_contra hlt
    have hpaths := RecordShape.shortAt?_eq_none_iff.mp hshort 2 (by decide) (by omega)
    exact absurd hpaths (by decide)
  exact Nat.le_antisymm hlength hlast

/-- Once the entries of a binding pass, its fields are got. -/
theorem exists_gets {v : Value} (h : shape.entries v = .ok entries) :
    ∃ b : Binding, b.Gets entries := by
  have hpasses : ∀ field ∈ shape.fields, field.Passes entries := by
    cases v with
    | object _ =>
      obtain ⟨rfl, hpasses⟩ := RecordShape.passes_of_entries_object (by decide) h
      exact hpasses
    | array items =>
      have hlength := length_of_entries h
      rw [RecordShape.entries_array_of_length hlength] at h
      obtain ⟨rfl, hpasses⟩ := RecordShape.passes_of_entries_object (by decide) h
      exact hpasses
    | _ => cases h
  obtain ⟨field, hfield⟩ := Field.passes_shape_iff.mp (hpasses _ (mem_fields_iff.mpr (.inl rfl)))
  obtain ⟨base, hbase⟩ :=
    Field.passes_shape_iff.mp (hpasses _ (mem_fields_iff.mpr (.inr (.inl rfl))))
  obtain ⟨paths, hpaths⟩ :=
    Field.passes_shape_iff.mp (hpasses _ (mem_fields_iff.mpr (.inr (.inr rfl))))
  exact ⟨⟨field, base, paths⟩, hfield, hbase, hpaths⟩

/-- A binding is refused for its entries only. -/
theorem ofValue_eq_error_iff {v : Value} {e : ShapeError} :
    ofValue v = .error e ↔ shape.entries v = .error e := by
  cases hentries : shape.entries v with
  | error fault => simp [ofValue, hentries, bind, Except.bind]
  | ok entries =>
    obtain ⟨b, hb⟩ := exists_gets hentries
    rw [ofValue_eq_ok_iff_gets.mpr ⟨entries, hentries, hb⟩]
    simp

theorem ofValue_array_eq_ok_iff {items : List Value} :
    ofValue (.array items) = .ok b ↔ b.HasForm (.array items) := by
  -- three elements are read as the object with the names of the fields
  have hthree : ∀ field base paths, ofValue (.array [field, base, paths]) = .ok b ↔
      field = .string b.field ∧ b.base.HasForm base ∧ b.paths.HasForm paths := by
    intro field base paths
    rw [← hasEntries_fields_iff, ← ofValue_object_eq_ok_iff (by simp), ofValue_eq_ok_iff_gets,
      ofValue_eq_ok_iff_gets, RecordShape.entries_array_of_length rfl]
    rfl
  constructor
  · intro h
    obtain ⟨entries, hentries, -⟩ := ofValue_eq_ok_iff_gets.mp h
    obtain ⟨field, base, paths, rfl⟩ := List.length_eq_three.mp (length_of_entries hentries)
    obtain ⟨rfl, hbase, hpaths⟩ := (hthree field base paths).mp h
    exact .array hbase hpaths
  · intro h
    cases h with
    | array hbase hpaths => exact (hthree _ _ _).mpr ⟨rfl, hbase, hpaths⟩

/-- A tree is read as a binding exactly when it has the form of it. -/
theorem ofValue_eq_ok_iff {v : Value} (hv : v.UniqueKeys) : ofValue v = .ok b ↔ b.HasForm v := by
  cases v with
  | object entries =>
    cases hv with
    | object hkeys _ =>
      rw [ofValue_object_eq_ok_iff hkeys]
      constructor
      · exact .object
      · rintro (h | _)
        exact h
  | array items => exact ofValue_array_eq_ok_iff
  | _ =>
    constructor
    · intro h
      obtain ⟨_, hentries, -⟩ := ofValue_eq_ok_iff_gets.mp h
      cases hentries
    · intro h
      cases h

end Binding

theorem ReferencePaths.HasForm.raws_ne_nil {paths : ReferencePaths} {v : Value}
    (h : paths.HasForm v) : paths.raws ≠ [] := by
  cases h with
  | single raw => exact List.cons_ne_nil raw []
  | alternatives h => exact h

/-- A binding that has a form has patterns. -/
theorem Binding.HasForm.raws_ne_nil {b : Binding} {v : Value} (h : b.HasForm v) :
    b.paths.raws ≠ [] := by
  cases h with
  | object h =>
    obtain ⟨_, -, hpaths⟩ := h.paths
    exact hpaths.raws_ne_nil
  | array _ hpaths => exact hpaths.raws_ne_nil

/-! ## Rule sets -/

namespace RuleSet

variable {rules : RuleSet} {entries : List (String × Value)} {read : DocumentReader} {text : String}

theorem readList_bindings_iff {v : Value} (hv : v.UniqueKeys) {bindings : List Binding} :
    readList Binding.ofValue v = .ok bindings ↔
      ∃ items, v = .array items ∧ List.Forall₂ Binding.HasForm bindings items := by
  rw [readList_eq_ok_iff]
  refine exists_congr fun items => and_congr_right ?_
  rintro rfl
  cases hv with
  | array hitems =>
    exact forall₂_congr_of_mem fun v hv b => Binding.ofValue_eq_ok_iff (hitems v hv)

theorem get_referencesField_iff (hv : (Value.object entries).UniqueKeys) {bindings : List Binding} :
    referencesField.get entries = .ok bindings ↔
      (Value.lookup "references" entries = none ∧ bindings = []) ∨
        ∃ items, Value.lookup "references" entries = some (.array items) ∧
          List.Forall₂ Binding.HasForm bindings items := by
  rw [referencesField, Field.get_defaulted_iff]
  refine or_congr Iff.rfl ?_
  cases hv with
  | object _ hvalues =>
    constructor
    · rintro ⟨v, hlookup, hread⟩
      have hv := hvalues _ (Value.mem_of_lookup hlookup)
      obtain ⟨items, rfl, hforms⟩ := (readList_bindings_iff hv).mp hread
      exact ⟨items, hlookup, hforms⟩
    · rintro ⟨items, hlookup, hforms⟩
      have hv := hvalues _ (Value.mem_of_lookup hlookup)
      exact ⟨_, hlookup, (readList_bindings_iff hv).mpr ⟨items, rfl, hforms⟩⟩

theorem ofValue_eq_ok_iff_get {v : Value} :
    ofValue v = .ok rules ↔
      ∃ entries, shape.entries v = .ok entries ∧
        referencesField.get entries = .ok rules.references := by
  rw [ofValue, Reading.bind_eq_ok_iff]
  refine exists_congr fun entries => and_congr Iff.rfl ?_
  rw [Reading.bind_eq_ok_iff]
  constructor
  · rintro ⟨_, hget, h⟩
    cases h
    exact hget
  · intro hget
    exact ⟨_, hget, rfl⟩

/-- A tree is read as a rule set exactly when it has the entries of it. -/
theorem ofValue_object_eq_ok_iff (hv : (Value.object entries).UniqueKeys) :
    ofValue (.object entries) = .ok rules ↔ rules.HasEntries entries := by
  have hkeys : (entries.map Prod.fst).Nodup := by
    cases hv with
    | object hkeys _ => exact hkeys
  rw [ofValue_eq_ok_iff_get]
  simp only [RecordShape.entries_object_eq_ok_iff (r := shape) (by decide) rfl hkeys]
  constructor
  · rintro ⟨_, ⟨rfl, hknown, -⟩, hget⟩
    exact ⟨fun entry hentry => List.mem_singleton.mp (hknown entry hentry),
      (get_referencesField_iff hv).mp hget⟩
  · intro h
    have hget := (get_referencesField_iff hv).mpr h.references
    refine ⟨entries, ⟨rfl, fun entry hentry => List.mem_singleton.mpr (h.known entry hentry), ?_⟩, hget⟩
    intro field hfield
    rw [List.mem_singleton.mp hfield]
    exact Field.passes_shape_iff.mpr ⟨_, hget⟩

/-- A rule set is refused for its entries only. -/
theorem ofValue_object_eq_error_iff {e : ShapeError} :
    ofValue (.object entries) = .error e ↔ shape.entries (.object entries) = .error e := by
  cases hentries : shape.entries (.object entries) with
  | error fault => simp [ofValue, hentries, bind, Except.bind]
  | ok read =>
    obtain ⟨rfl, hpasses⟩ := RecordShape.passes_of_entries_object (by decide) hentries
    obtain ⟨references, hget⟩ :=
      Field.passes_shape_iff.mp (hpasses referencesField.shape (List.mem_singleton_self _))
    have hread : ofValue (.object read) = .ok ⟨references⟩ :=
      ofValue_eq_ok_iff_get.mpr ⟨read, hentries, hget⟩
    rw [hread]
    simp

theorem parse_of_object (htree : Value.parse text read = .ok (.object entries)) :
    parse text read = (ofValue (.object entries)).mapError .shape := by
  rw [parse, htree]

/-- A rule set that was read from a text has the entries of some object. -/
theorem exists_hasEntries_of_parse (hread : read.KeepsKeysUnique) (h : parse text read = .ok rules) :
    ∃ entries, Value.parse text read = .ok (.object entries) ∧ rules.HasEntries entries := by
  cases htree : Value.parse text read with
  | error fault =>
    rw [parse, htree] at h
    cases h
  | ok tree =>
    cases tree with
    | object entries =>
      rw [parse_of_object htree] at h
      have hrules := mapError_eq_ok_iff.mp h
      have hunique := Value.uniqueKeys_of_parse hread htree
      exact ⟨entries, rfl, (ofValue_object_eq_ok_iff hunique).mp hrules⟩
    | _ =>
      rw [parse, htree] at h
      cases h

/-- No binding of a rule set that was read from a text is without patterns. -/
theorem raws_ne_nil_of_parse (hread : read.KeepsKeysUnique) (h : parse text read = .ok rules) :
    ∀ b ∈ rules.references, b.paths.raws ≠ [] := by
  obtain ⟨entries, -, hentries⟩ := exists_hasEntries_of_parse hread h
  intro b hb
  rcases hentries.references with ⟨-, hnone⟩ | ⟨items, -, hforms⟩
  · rw [hnone] at hb
    cases hb
  · have hpaths := hforms.imp fun _ _ hform => And.intro hform.raws_ne_nil hform
    exact ((List.forall₂_and_left _ _).mp hpaths).1 b hb

/-- With any reader whose documents repeat no key, a text is read as a rule set exactly when its tree has
the form of that rule set; a tree that is no object is of the wrong type. -/
theorem parse_eq_ok_iff_hasForm (hread : read.KeepsKeysUnique) {tree : Value}
    (htree : Value.parse text read = .ok tree) :
    (∀ rules, RuleSet.parse text read = .ok rules ↔ rules.HasForm tree) ∧
      (tree.entries? = none →
        ∃ fault, RuleSet.parse text read = .error fault ∧ fault.error.kind = .typeMismatch) := by
  have hunique := Value.uniqueKeys_of_parse hread htree
  cases tree with
  | object entries =>
    refine ⟨fun rules => ?_, nofun⟩
    have hok : parse text read = .ok rules ↔ ofValue (.object entries) = .ok rules := by
      rw [parse_of_object htree, mapError_eq_ok_iff]
    rw [hok, ofValue_object_eq_ok_iff hunique]
    simp [HasForm]
  | _ =>
    rw [parse, htree]
    refine ⟨fun rules => ?_, fun _ => ⟨_, rfl, rfl⟩⟩
    simp [HasForm]

/-- A binding given as a list of its fields, with a base type given as an object, and a binding given as
an object without a base type. -/
theorem parse_listed_fields :
    RuleSet.parse "references: [[a, {number: }, [b]], {fk: c, field: d}]"
      = .ok ⟨[⟨"a", .number, .alternatives ["b"]⟩, ⟨"d", .string, .single "c"⟩]⟩ := by
  have htree : Value.parse "references: [[a, {number: }, [b]], {fk: c, field: d}]"
      = .ok (.object [("references", .array [
          .array [.string "a", .object [("number", .null)], .array [.string "b"]],
          .object [("fk", .string "c"), ("field", .string "d")]])]) := by
    decide +kernel
  refine ((parse_eq_ok_iff_hasForm DocumentReader.keepsKeysUnique_yaml htree).1 _).mpr
    ⟨_, rfl, by simp, .inr ⟨_, rfl, ?_⟩⟩
  refine .cons ?_ (.cons ?_ .nil)
  · exact .array .object (.alternatives (List.cons_ne_nil "b" []))
  · exact .object ⟨by simp, rfl, .inl ⟨rfl, rfl⟩, _, rfl, .single "c"⟩

end RuleSet

end ForeignKey
