import ForeignKey.Proofs.ParseFault.Messages
import ForeignKey.Proofs.RuleSet.Grammar

/-!
# The kind of the error of a rule set

A rule set that is refused is refused for the first fault of its document. The fault is an unknown field
exactly if a key that is no field comes before everything else that is wrong. Its kind, however, is read
off the message, and a message also counts as one about an unknown field if a text of the document that it
quotes happens to have the words in it. Main statement: those two are the only ways to that kind, and every
other refusal is one of a wrong type.
-/

namespace ForeignKey

open ParseFault

/-! ## What readers quote -/

/-- An error about a value quotes no texts but those of the value, and the names that it adds are not
marked. -/
structure ShapeError.TakenFrom (e : ShapeError) (v : Value) : Prop where
  quotes : ∀ t ∈ e.quotes, t ∈ v.texts
  ownWords : ∀ w ∈ e.ownWords, ¬ Marked w

/-- A reader whose errors are taken from what it reads. -/
def QuotesInput {α : Type} (read : Value → Reading α) : Prop :=
  ∀ {v e}, read v = .error e → e.TakenFrom v

namespace ShapeError.TakenFrom

variable {e : ShapeError} {v : Value}

theorem of_item {items : List Value} (h : e.TakenFrom v) (hv : v ∈ items) :
    e.TakenFrom (.array items) :=
  ⟨fun t ht => Value.mem_texts_array.mpr ⟨v, hv, h.quotes t ht⟩, h.ownWords⟩

theorem of_entry {entries : List (String × Value)} {name : String} (h : e.TakenFrom v)
    (hv : (name, v) ∈ entries) : e.TakenFrom (.object entries) :=
  ⟨fun t ht => Value.mem_texts_object.mpr ⟨_, hv, .inr (h.quotes t ht)⟩, h.ownWords⟩

theorem wrongKind {expected : Shape} (h : ¬ Marked expected.expected) :
    (ShapeError.wrongKind v expected).TakenFrom v := by
  refine ⟨fun t ht => ?_, fun w hw => ?_⟩
  · cases v <;> simp_all [ShapeError.quotes, Value.texts]
  · rw [List.mem_singleton.mp hw]
    exact h

end ShapeError.TakenFrom

theorem quotesInput_readList {α : Type} {read : Value → Reading α} (hread : QuotesInput read) :
    QuotesInput (readList read) := by
  intro v e h
  cases v with
  | array items =>
    obtain ⟨v, hv, hbad⟩ := (mapM_eq_error_iff.mp h).exists_bad
    exact (hread hbad).of_item hv
  | _ =>
    cases h
    exact .wrongKind (by decide)

theorem quotesInput_readText : QuotesInput readText := by
  intro v e h
  rw [eq_of_readText_eq_error h]
  exact .wrongKind (by decide)

theorem quotesInput_readChoice {α : Type} {choices : List (String × α)}
    (hnames : ¬ Marked (offered (choices.map (·.1)))) : QuotesInput (readChoice choices) := by
  intro v e h
  rcases readChoice_error_cases h with ⟨name, hname, rfl⟩ | ⟨name, content, rfl, rfl⟩ | rfl | rfl
  · refine ⟨fun t ht => ?_, fun w hw => ?_⟩
    · rw [List.mem_singleton.mp ht]
      rcases hname with rfl | ⟨content, rfl⟩
      · exact List.mem_singleton_self name
      · exact Value.mem_texts_object.mpr ⟨_, List.mem_singleton_self _, .inl rfl⟩
    · rw [List.mem_singleton.mp hw]
      exact hnames
  · have hcontent : (ShapeError.wrongKind content .nothing).TakenFrom content :=
      .wrongKind (by decide)
    exact hcontent.of_entry (List.mem_singleton_self _)
  · exact ⟨nofun, nofun⟩
  · exact .wrongKind (by decide)

theorem quotesInput_paths : QuotesInput ReferencePaths.ofValue := by
  intro v e h
  rcases ReferencePaths.error_cases h with rfl | ⟨items, item, rfl, hitem, rfl⟩ | rfl
  · exact ⟨nofun, nofun⟩
  · have hentry : (ShapeError.pathNotText item).TakenFrom item := ⟨fun _ ht => ht, nofun⟩
    exact hentry.of_item hitem
  · exact ⟨fun _ ht => ht, nofun⟩

namespace RecordShape

/-- A closed record quotes its input if its fields do and its own names are not marked. -/
theorem quotesInput_entries {r : RecordShape} (hnd : r.names.Nodup) (hclosed : r.closed = true)
    (hname : ¬ Marked r.name) (hnames : ∀ name ∈ r.names, ¬ Marked name)
    (hfields : ∀ field ∈ r.fields, QuotesInput field.check) : QuotesInput r.entries := by
  have hstruct : Separator "struct " := ApartFromMark.separator (by decide +kernel)
  have hexpected : ¬ Marked (Shape.record r.name).expected := by
    show ¬ Marked ("struct " ++ r.name)
    rwa [hstruct.marked_append_left_iff]
  intro v e h
  cases v with
  | object entries =>
    rcases entries_object_eq_error_iff.mp h with hcheck | ⟨-, field, hmissing, rfl⟩
    · obtain ⟨⟨name, v⟩, hentry, hbad⟩ := (checkEntries_eq_error_iff.mp hcheck).exists_bad
      rcases (checkEntry_eq_error_iff hnd hclosed).mp hbad with ⟨-, rfl⟩ | ⟨field, hfield, -, hfault⟩
      · refine ⟨fun t ht => ?_, nofun⟩
        rw [List.mem_singleton.mp ht]
        exact Value.mem_texts_object.mpr ⟨_, hentry, .inl rfl⟩
      · exact (hfields field hfield hfault).of_entry hentry
    · refine ⟨nofun, fun w hw => ?_⟩
      rw [List.mem_singleton.mp hw]
      exact hnames _ (List.mem_map_of_mem (List.mem_of_find?_eq_some hmissing))
  | array items =>
    rcases error_of_entries_array h with hcheck | ⟨i, rfl⟩ | rfl
    · obtain ⟨⟨name, v⟩, hentry, hbad⟩ := (checkEntries_eq_error_iff.mp hcheck).exists_bad
      -- the keys are the names of the fields here, so only a value can be refused
      obtain ⟨hknown, hv⟩ := List.of_mem_zip hentry
      rcases (checkEntry_eq_error_iff hnd hclosed).mp hbad with
        ⟨hunknown, -⟩ | ⟨field, hfield, -, hfault⟩
      · exact absurd hknown hunknown
      · exact (hfields field hfield hfault).of_item hv
    · refine ⟨nofun, fun w hw => ?_⟩
      rw [List.mem_singleton.mp hw]
      exact hname
    · exact ⟨nofun, nofun⟩
  | _ =>
    cases h
    exact .wrongKind hexpected

end RecordShape

theorem Field.quotesInput_check {α : Type} {f : Field α} (h : QuotesInput f.read) :
    QuotesInput f.shape.check := fun hcheck => h (Reading.map_eq_error_iff.mp hcheck)

/-! ## Unknown fields -/

/-- Whether a reading ends at a key that is no field. -/
def Reading.MeetsUnknownField {α : Type} (x : Reading α) : Prop :=
  ∃ e, x = .error e ∧ e.isUnknownField = true

theorem not_meetsUnknownField_readText (v : Value) : ¬ (readText v).MeetsUnknownField := by
  rintro ⟨e, h, hunknown⟩
  rw [eq_of_readText_eq_error h] at hunknown
  cases hunknown

theorem not_meetsUnknownField_readChoice {α : Type} (choices : List (String × α)) (v : Value) :
    ¬ (readChoice choices v).MeetsUnknownField := by
  rintro ⟨e, h, hunknown⟩
  rcases readChoice_error_cases h with ⟨_, -, rfl⟩ | ⟨_, _, -, rfl⟩ | rfl | rfl <;> cases hunknown

theorem not_meetsUnknownField_paths (v : Value) :
    ¬ (ReferencePaths.ofValue v).MeetsUnknownField := by
  rintro ⟨e, h, hunknown⟩
  rcases ReferencePaths.error_cases h with rfl | ⟨_, _, -, -, rfl⟩ | rfl <;> cases hunknown

/-- A list meets an unknown field in the first element that cannot be read. -/
theorem meetsUnknownField_readList_iff {α : Type} {read : Value → Reading α} {v : Value} :
    (readList read v).MeetsUnknownField ↔
      ∃ items, v = .array items ∧
        FirstFails (fun v => ∃ a, read v = .ok a) (fun v => (read v).MeetsUnknownField) items := by
  constructor
  · rintro ⟨e, h, hunknown⟩
    cases v with
    | array items =>
      exact ⟨items, rfl, FirstFails.exists_iff.mp ⟨e, mapM_eq_error_iff.mp h, hunknown⟩⟩
    | _ => cases h; cases hunknown
  · rintro ⟨items, rfl, h⟩
    obtain ⟨e, hfails, hunknown⟩ := FirstFails.exists_iff.mpr h
    exact ⟨e, mapM_eq_error_iff.mpr hfails, hunknown⟩

theorem Field.meetsUnknownField_check_iff {α : Type} {f : Field α} {v : Value} :
    (f.shape.check v).MeetsUnknownField ↔ (f.read v).MeetsUnknownField :=
  exists_congr fun _ => and_congr Reading.map_eq_error_iff Iff.rfl

namespace RecordShape

variable {r : RecordShape} {entries : List (String × Value)}

theorem meetsUnknownField_checkEntries_iff :
    (r.checkEntries entries).MeetsUnknownField ↔
      FirstFails (fun entry => r.checkEntry entry.1 entry.2 = .ok ())
        (fun entry => (r.checkEntry entry.1 entry.2).MeetsUnknownField) entries := by
  rw [Reading.MeetsUnknownField]
  simp only [checkEntries_eq_error_iff]
  exact FirstFails.exists_iff

theorem meetsUnknownField_checkEntry_iff (hnd : r.names.Nodup) (hclosed : r.closed = true)
    {name : String} {v : Value} :
    (r.checkEntry name v).MeetsUnknownField ↔
      name ∉ r.names ∨ ∃ field ∈ r.fields, field.name = name ∧ (field.check v).MeetsUnknownField := by
  constructor
  · rintro ⟨e, h, hunknown⟩
    rcases (checkEntry_eq_error_iff hnd hclosed).mp h with ⟨hname, -⟩ | ⟨field, hfield, hname, h⟩
    · exact .inl hname
    · exact .inr ⟨field, hfield, hname, e, h, hunknown⟩
  · rintro (hname | ⟨field, hfield, hname, e, h, hunknown⟩)
    · exact ⟨_, (checkEntry_eq_error_iff hnd hclosed).mpr (.inl ⟨hname, rfl⟩), rfl⟩
    · exact ⟨e, (checkEntry_eq_error_iff hnd hclosed).mpr (.inr ⟨field, hfield, hname, h⟩), hunknown⟩

/-- The fields that an object lacks do not count, since they are looked for after its entries. -/
theorem meetsUnknownField_object_iff :
    (r.entries (.object entries)).MeetsUnknownField ↔
      (r.checkEntries entries).MeetsUnknownField := by
  constructor
  · rintro ⟨e, h, hunknown⟩
    rcases entries_object_eq_error_iff.mp h with hcheck | ⟨-, field, -, rfl⟩
    · exact ⟨e, hcheck, hunknown⟩
    · cases hunknown
  · rintro ⟨e, h, hunknown⟩
    exact ⟨e, entries_object_eq_error_iff.mpr (.inl h), hunknown⟩

end RecordShape

/-! ## Bindings -/

namespace Binding

/-- An entry of a binding that is as it should be. -/
inductive TakesEntry : String × Value → Prop where
  | field (raw : String) : TakesEntry ("field", .string raw)
  | base {b : BaseType} {v : Value} (h : b.HasForm v) : TakesEntry ("type", v)
  | paths {paths : ReferencePaths} {v : Value} (h : paths.HasForm v) : TakesEntry ("fk", v)

/-- A binding is an object in which a key that is no field comes before everything else that is
wrong. -/
def MeetsUnknownKey (v : Value) : Prop :=
  ∃ entries, v = .object entries ∧
    FirstFails TakesEntry (fun entry => entry.1 ∉ ["field", "type", "fk"]) entries

theorem checkEntry_eq_ok_iff {entry : String × Value} :
    shape.checkEntry entry.1 entry.2 = .ok () ↔ TakesEntry entry := by
  obtain ⟨name, v⟩ := entry
  rw [RecordShape.checkEntry_eq_ok_iff (by decide) rfl]
  constructor
  · rintro ⟨field, hfield, rfl, h⟩
    rcases mem_fields_iff.mp hfield with rfl | rfl | rfl
    · obtain ⟨raw, hraw, -⟩ := Reading.map_eq_ok_iff.mp h
      obtain rfl := readText_eq_ok_iff.mp hraw
      exact .field raw
    · obtain ⟨b, hb, -⟩ := Reading.map_eq_ok_iff.mp h
      exact .base (BaseType.ofValue_eq_ok_iff.mp hb)
    · obtain ⟨paths, hpaths, -⟩ := Reading.map_eq_ok_iff.mp h
      exact .paths (ReferencePaths.ofValue_eq_ok_iff.mp hpaths)
  · intro h
    cases h with
    | field raw => exact ⟨fieldField.shape, mem_fields_iff.mpr (.inl rfl), rfl, rfl⟩
    | base h =>
      exact ⟨baseField.shape, mem_fields_iff.mpr (.inr (.inl rfl)), rfl,
        Reading.map_eq_ok_iff.mpr ⟨_, BaseType.ofValue_eq_ok_iff.mpr h, rfl⟩⟩
    | paths h =>
      exact ⟨pathsField.shape, mem_fields_iff.mpr (.inr (.inr rfl)), rfl,
        Reading.map_eq_ok_iff.mpr ⟨_, ReferencePaths.ofValue_eq_ok_iff.mpr h, rfl⟩⟩

theorem not_meetsUnknownField_check {field : FieldShape} (hfield : field ∈ shape.fields) (v : Value) :
    ¬ (field.check v).MeetsUnknownField := by
  rcases mem_fields_iff.mp hfield with rfl | rfl | rfl <;> rw [Field.meetsUnknownField_check_iff]
  · exact not_meetsUnknownField_readText v
  · exact not_meetsUnknownField_readChoice _ v
  · exact not_meetsUnknownField_paths v

theorem meetsUnknownField_checkEntry_iff {entry : String × Value} :
    (shape.checkEntry entry.1 entry.2).MeetsUnknownField ↔ entry.1 ∉ ["field", "type", "fk"] := by
  rw [RecordShape.meetsUnknownField_checkEntry_iff (by decide) rfl]
  refine or_iff_left ?_
  rintro ⟨field, hfield, -, h⟩
  exact not_meetsUnknownField_check hfield entry.2 h

theorem meetsUnknownField_iff {v : Value} :
    (ofValue v).MeetsUnknownField ↔ MeetsUnknownKey v := by
  have hentries : (ofValue v).MeetsUnknownField ↔ (shape.entries v).MeetsUnknownField :=
    exists_congr fun _ => and_congr ofValue_eq_error_iff Iff.rfl
  rw [hentries]
  cases v with
  | object entries =>
    rw [RecordShape.meetsUnknownField_object_iff, RecordShape.meetsUnknownField_checkEntries_iff]
    simp only [checkEntry_eq_ok_iff, meetsUnknownField_checkEntry_iff]
    simp [MeetsUnknownKey]
  | array items =>
    refine iff_of_false ?_ (by simp [MeetsUnknownKey])
    rintro ⟨e, h, hunknown⟩
    rcases RecordShape.error_of_entries_array h with hcheck | ⟨i, rfl⟩ | rfl
    · -- the keys of the array form are the names of the fields
      obtain ⟨entry, hentry, hbad⟩ := (RecordShape.checkEntries_eq_error_iff.mp hcheck).exists_bad
      exact meetsUnknownField_checkEntry_iff.mp ⟨e, hbad, hunknown⟩ (List.of_mem_zip hentry).1
    · cases hunknown
    · cases hunknown
  | _ =>
    refine iff_of_false ?_ (by simp [MeetsUnknownKey])
    rintro ⟨e, h, hunknown⟩
    cases h
    cases hunknown

end Binding

/-! ## Rule sets -/

theorem Binding.quotesInput_ofValue : QuotesInput Binding.ofValue := by
  intro v e h
  refine RecordShape.quotesInput_entries (r := shape) (by decide) rfl (by decide) (by decide) ?_
    (ofValue_eq_error_iff.mp h)
  intro field hfield
  rcases mem_fields_iff.mp hfield with rfl | rfl | rfl
  · exact Field.quotesInput_check quotesInput_readText
  · exact Field.quotesInput_check (quotesInput_readChoice (by decide))
  · exact Field.quotesInput_check quotesInput_paths

namespace RuleSet

variable {entries : List (String × Value)}

/-- An entry of a rule set that is as it should be. -/
def TakesEntry (entry : String × Value) : Prop :=
  entry.1 = "references" ∧
    ∃ bindings items, entry.2 = .array items ∧ List.Forall₂ Binding.HasForm bindings items

/-- A key that is no field comes before everything else that is wrong, among the keys of the rule set
itself or within its bindings. -/
def MeetsUnknownKey (entries : List (String × Value)) : Prop :=
  FirstFails TakesEntry
    (fun entry => entry.1 ≠ "references" ∨ ∃ items, entry.2 = .array items ∧
      FirstFails (fun v => ∃ b : Binding, b.HasForm v) Binding.MeetsUnknownKey items)
    entries

theorem checkEntry_eq_ok_iff {entry : String × Value} (hv : entry.2.UniqueKeys) :
    shape.checkEntry entry.1 entry.2 = .ok () ↔ TakesEntry entry := by
  rw [RecordShape.checkEntry_eq_ok_iff (by decide) rfl]
  constructor
  · rintro ⟨field, hfield, hname, h⟩
    obtain rfl := List.mem_singleton.mp hfield
    obtain ⟨bindings, hread, -⟩ := Reading.map_eq_ok_iff.mp h
    exact ⟨hname.symm, bindings, (readList_bindings_iff hv).mp hread⟩
  · rintro ⟨hname, bindings, hforms⟩
    have hread := (readList_bindings_iff hv).mpr hforms
    exact ⟨referencesField.shape, List.mem_singleton_self _, hname.symm,
      Reading.map_eq_ok_iff.mpr ⟨bindings, hread, rfl⟩⟩

theorem meetsUnknownField_checkEntry_iff {entry : String × Value} (hv : entry.2.UniqueKeys) :
    (shape.checkEntry entry.1 entry.2).MeetsUnknownField ↔
      entry.1 ≠ "references" ∨ ∃ items, entry.2 = .array items ∧
        FirstFails (fun v => ∃ b : Binding, b.HasForm v) Binding.MeetsUnknownKey items := by
  have hlist : (referencesField.shape.check entry.2).MeetsUnknownField ↔
      ∃ items, entry.2 = .array items ∧
        FirstFails (fun v => ∃ b : Binding, b.HasForm v) Binding.MeetsUnknownKey items := by
    rw [Field.meetsUnknownField_check_iff]
    refine meetsUnknownField_readList_iff.trans (exists_congr fun items => and_congr_right ?_)
    intro heq
    rw [heq] at hv
    cases hv with
    | array hitems =>
      exact FirstFails.congr
        (fun v hv => exists_congr fun _ => Binding.ofValue_eq_ok_iff (hitems v hv))
        (fun _ _ => Binding.meetsUnknownField_iff)
  rw [RecordShape.meetsUnknownField_checkEntry_iff (by decide) rfl, ← hlist]
  constructor
  · rintro (hname | ⟨field, hfield, -, h⟩)
    · exact .inl fun heq => hname (List.mem_singleton.mpr heq)
    · exact .inr (List.mem_singleton.mp hfield ▸ h)
  · rintro (hname | h)
    · exact .inl fun hmem => hname (List.mem_singleton.mp hmem)
    · by_cases hname : entry.1 = "references"
      · exact .inr ⟨_, List.mem_singleton_self _, hname.symm, h⟩
      · exact .inl fun hmem => hname (List.mem_singleton.mp hmem)

theorem meetsUnknownField_iff (hv : (Value.object entries).UniqueKeys) :
    (ofValue (.object entries)).MeetsUnknownField ↔ MeetsUnknownKey entries := by
  have hentries : (ofValue (.object entries)).MeetsUnknownField ↔
      (shape.entries (.object entries)).MeetsUnknownField :=
    exists_congr fun _ => and_congr ofValue_object_eq_error_iff Iff.rfl
  rw [hentries, RecordShape.meetsUnknownField_object_iff,
    RecordShape.meetsUnknownField_checkEntries_iff]
  cases hv with
  | object _ hvalues =>
    exact FirstFails.congr (fun entry hentry => checkEntry_eq_ok_iff (hvalues entry hentry))
      (fun entry hentry => meetsUnknownField_checkEntry_iff (hvalues entry hentry))

theorem quotesInput_ofValue {e : ShapeError} (h : ofValue (.object entries) = .error e) :
    e.TakenFrom (.object entries) := by
  refine RecordShape.quotesInput_entries (r := shape) (by decide) rfl (by decide) (by decide) ?_
    (ofValue_object_eq_error_iff.mp h)
  intro field hfield
  rw [List.mem_singleton.mp hfield]
  exact Field.quotesInput_check (quotesInput_readList Binding.quotesInput_ofValue)

/-- The kind of the error of a rule set, with any reader whose documents repeat no key: unknown field if a
key that is no field is the first fault, or if a text of the document that the message quotes is marked; and
wrong type otherwise. -/
theorem kind_of_parse_error {read : DocumentReader} (hunique : read.KeepsKeysUnique) {text : String}
    {fault : ParseFault} (htree : Value.parse text read = .ok (.object entries))
    (hfault : RuleSet.parse text read = .error fault) :
    ∃ e, fault = .shape e ∧ (∀ t ∈ e.quotes, t ∈ (Value.object entries).texts) ∧
      (fault.error.kind = .unknownField ↔
        MeetsUnknownKey entries ∨ ∃ t ∈ e.quotes, Marked t) ∧
      (fault.error.kind = .typeMismatch ↔
        ¬ MeetsUnknownKey entries ∧ ∀ t ∈ e.quotes, ¬ Marked t) := by
  rw [parse_of_object htree] at hfault
  obtain ⟨e, hread, rfl⟩ := mapError_eq_error_iff.mp hfault
  -- `e` is the first fault, and its message is all that the kind is read off
  have htaken := quotesInput_ofValue hread
  have hunknown : e.isUnknownField = true ↔ MeetsUnknownKey entries := by
    rw [← meetsUnknownField_iff (Value.uniqueKeys_of_parse hunique htree), hread]
    constructor
    · intro h
      exact ⟨e, rfl, h⟩
    · rintro ⟨_, heq, h⟩
      cases heq
      exact h
  have hmarked := ShapeError.marked_message_iff htaken.ownWords
  rw [hunknown] at hmarked
  refine ⟨e, rfl, htaken.quotes, ?_, ?_⟩
  · exact kindOfMessage_eq_unknownField_iff.trans hmarked
  · refine kindOfMessage_eq_typeMismatch_iff.trans ?_
    rw [hmarked, not_or, not_exists]
    simp only [not_and]

/-- An empty list of reference paths is of the wrong type, so no unknown field comes before it. -/
theorem no_unknown_key_before_empty_paths :
    RuleSet.parse "references:\n- field: a\n  fk: []\n" = .error (.shape .noPaths) ∧
      ¬ MeetsUnknownKey
        [("references", .array [.object [("field", .string "a"), ("fk", .array [])]])] := by
  have htree : Value.parse "references:\n- field: a\n  fk: []\n" = .ok (.object
      [("references", .array [.object [("field", .string "a"), ("fk", .array [])]])]) := by
    decide +kernel
  have hfault : RuleSet.parse "references:\n- field: a\n  fk: []\n" = .error (.shape .noPaths) := by
    rw [parse_of_object htree]
    rfl
  obtain ⟨e, -, -, -, hkind⟩ :=
    kind_of_parse_error DocumentReader.keepsKeysUnique_yaml htree hfault
  exact ⟨hfault, (hkind.mp rfl).1⟩

/-- A binding whose fields are all known, but whose base type is none, is refused with the kind of unknown
fields, since the message quotes that base type. -/
theorem marked_base_type_counts_as_unknown_field :
    ∃ entries fault,
      Value.parse "references:\n  - field: a\n    fk: b\n    type: unknown field\n"
        = .ok (.object entries) ∧
      RuleSet.parse "references:\n  - field: a\n    fk: b\n    type: unknown field\n"
        = .error fault ∧
      ¬ MeetsUnknownKey entries ∧ fault.error.kind = .unknownField := by
  have htree : Value.parse "references:\n  - field: a\n    fk: b\n    type: unknown field\n"
      = .ok (.object [("references", .array [.object
          [("field", .string "a"), ("fk", .string "b"), ("type", .string "unknown field")]])]) := by
    decide +kernel
  have hread : ofValue (.object [("references", .array [.object
      [("field", .string "a"), ("fk", .string "b"), ("type", .string "unknown field")]])])
        = .error (.unknownChoice "unknown field" ["string", "number"]) := rfl
  refine ⟨_, .shape (.unknownChoice "unknown field" ["string", "number"]), htree, ?_, ?_, ?_⟩
  · rw [parse_of_object htree, hread]
    rfl
  · have hkeys := Value.uniqueKeys_of_parse DocumentReader.keepsKeysUnique_yaml htree
    rw [← meetsUnknownField_iff hkeys, hread]
    rintro ⟨e, h, hunknown⟩
    cases h
    cases hunknown
  · have hmarked :
        Marked (ShapeError.unknownChoice "unknown field" ["string", "number"]).message := by
      decide
    exact kindOfMessage_eq_unknownField_iff.mpr hmarked

end RuleSet

end ForeignKey
