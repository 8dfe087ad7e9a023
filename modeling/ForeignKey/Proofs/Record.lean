import Mathlib.Data.List.Nodup
import ForeignKey.Proofs.Value.Equality
import ForeignKey.Record

/-!
# What reading accepts and what it refuses

Laws of readings, field by field and record by record. A list is read if each element is, and is refused
for its first element that is. A closed record is read from an object exactly when the object has no other
keys than the names of the fields and every field can be got; since no key is repeated, an entry and what
its key is looked up as are the same. The array form of full length is the object form with the names put
in.
-/

namespace ForeignKey

/-! ## Outcomes -/

namespace Reading

variable {α β : Type} {x : Reading α} {e : ShapeError}

theorem bind_eq_ok_iff {f : α → Reading β} {b : β} :
    (x >>= f) = .ok b ↔ ∃ a, x = .ok a ∧ f a = .ok b := by
  cases x <;> simp [bind, Except.bind]

theorem bind_eq_error_iff {f : α → Reading β} :
    (x >>= f) = .error e ↔ x = .error e ∨ ∃ a, x = .ok a ∧ f a = .error e := by
  cases x <;> simp [bind, Except.bind]

theorem map_eq_ok_iff {f : α → β} {b : β} : x.map f = .ok b ↔ ∃ a, x = .ok a ∧ f a = b := by
  cases x <;> simp [Except.map]

theorem map_eq_error_iff {f : α → β} : x.map f = .error e ↔ x = .error e := by
  cases x <;> simp [Except.map]

end Reading

/-! ## The first that fails -/

/-- Some element of a list is bad, and all elements before it are good. -/
inductive FirstFails {α : Type} (Good Bad : α → Prop) : List α → Prop where
  | here {x : α} {rest : List α} (h : Bad x) : FirstFails Good Bad (x :: rest)
  | later {x : α} {rest : List α} (h : Good x) (hrest : FirstFails Good Bad rest) :
    FirstFails Good Bad (x :: rest)

namespace FirstFails

variable {α : Type} {Good Bad : α → Prop} {x : α} {l rest : List α}

theorem cons_iff : FirstFails Good Bad (x :: rest) ↔ Bad x ∨ Good x ∧ FirstFails Good Bad rest := by
  constructor
  · intro h
    cases h with
    | here h => exact .inl h
    | later h hrest => exact .inr ⟨h, hrest⟩
  · rintro (h | ⟨h, hrest⟩)
    · exact .here h
    · exact .later h hrest

theorem congr {Good' Bad' : α → Prop} (hgood : ∀ x ∈ l, Good x ↔ Good' x)
    (hbad : ∀ x ∈ l, Bad x ↔ Bad' x) : FirstFails Good Bad l ↔ FirstFails Good' Bad' l := by
  induction l with
  | nil => exact ⟨nofun, nofun⟩
  | cons x rest ih =>
    rw [List.forall_mem_cons] at hgood hbad
    rw [cons_iff, cons_iff, hgood.1, hbad.1, ih hgood.2 hbad.2]

/-- What is bad can be chosen first. -/
theorem exists_iff {β : Type} {P : β → Prop} {Bad : β → α → Prop} :
    (∃ b, FirstFails Good (Bad b) l ∧ P b) ↔ FirstFails Good (fun x => ∃ b, Bad b x ∧ P b) l := by
  induction l with
  | nil => exact ⟨nofun, nofun⟩
  | cons x rest ih =>
    simp only [cons_iff, ← ih, or_and_right, exists_or, and_assoc, exists_and_left]

/-- If every element is good or bad and some is bad, there is a first one. -/
theorem of_exists (hcases : ∀ x ∈ l, Good x ∨ Bad x) (h : ∃ x ∈ l, Bad x) :
    FirstFails Good Bad l := by
  induction l with
  | nil =>
    obtain ⟨_, hx, -⟩ := h
    cases hx
  | cons x rest ih =>
    rw [List.forall_mem_cons] at hcases
    rw [List.exists_mem_cons_iff] at h
    rcases h with hbad | hrest
    · exact .here hbad
    · rcases hcases.1 with hgood | hbad
      · exact .later hgood (ih hcases.2 hrest)
      · exact .here hbad

/-- Some element is bad. -/
theorem exists_bad (h : FirstFails Good Bad l) : ∃ x ∈ l, Bad x := by
  induction h with
  | here h => exact ⟨_, List.mem_cons_self, h⟩
  | later _ _ ih =>
    obtain ⟨x, hx, hbad⟩ := ih
    exact ⟨x, List.mem_cons_of_mem _ hx, hbad⟩

end FirstFails

/-! ## Lists -/

/-- Lists are related alike if the relation is on the elements of the second one. -/
theorem forall₂_congr_of_mem {α β : Type} {R S : α → β → Prop} {as : List α} {bs : List β}
    (h : ∀ b ∈ bs, ∀ a, R a b ↔ S a b) : List.Forall₂ R as bs ↔ List.Forall₂ S as bs := by
  induction bs generalizing as with
  | nil => simp
  | cons b rest ih =>
    rw [List.forall_mem_cons] at h
    cases as with
    | nil => simp
    | cons a as => rw [List.forall₂_cons, List.forall₂_cons, h.1, ih h.2]

section Lists

variable {α β : Type} {read : β → Reading α} {l : List β} {e : ShapeError}

/-- A list is read if every element is. -/
theorem mapM_eq_ok_iff {as : List α} :
    l.mapM read = .ok as ↔ List.Forall₂ (fun a v => read v = .ok a) as l := by
  induction l generalizing as with
  | nil => cases as <;> simp [pure, Except.pure]
  | cons v rest ih =>
    rw [List.mapM_cons, Reading.bind_eq_ok_iff]
    simp only [Reading.bind_eq_ok_iff]
    constructor
    · rintro ⟨a, ha, as', has, h⟩
      cases h
      exact .cons ha (ih.mp has)
    · intro h
      cases h with
      | cons ha has => exact ⟨_, ha, _, ih.mpr has, rfl⟩

/-- A list is refused for its first element that is. -/
theorem mapM_eq_error_iff :
    l.mapM read = .error e ↔
      FirstFails (fun v => ∃ a, read v = .ok a) (fun v => read v = .error e) l := by
  induction l with
  | nil => exact ⟨nofun, nofun⟩
  | cons v rest ih =>
    rw [List.mapM_cons, Reading.bind_eq_error_iff, FirstFails.cons_iff, ← ih]
    refine or_congr Iff.rfl ?_
    rw [← exists_and_right]
    refine exists_congr fun a => and_congr Iff.rfl ?_
    rw [Reading.bind_eq_error_iff]
    constructor
    · rintro (h | ⟨_, _, h⟩)
      · exact h
      · cases h
    · exact .inl

end Lists

/-! ## Texts and choices -/

theorem readText_eq_ok_iff {v : Value} {s : String} : readText v = .ok s ↔ v = .string s := by
  cases v <;> simp [readText]

theorem eq_of_readText_eq_error {v : Value} {e : ShapeError} (h : readText v = .error e) :
    e = .wrongKind v .text := by
  cases v <;> cases h <;> rfl

theorem readList_eq_ok_iff {α : Type} {read : Value → Reading α} {v : Value} {as : List α} :
    readList read v = .ok as ↔
      ∃ items, v = .array items ∧ List.Forall₂ (fun a v => read v = .ok a) as items := by
  cases v <;> simp [readList, mapM_eq_ok_iff]

theorem pick_eq_ok_iff {α : Type} {choices : List (String × α)} {name : String} {a : α} :
    pick choices name = .ok a ↔ choices.lookup name = some a := by
  rw [pick]
  cases choices.lookup name <;> simp

/-- An alternative is given by its name, or by an object from its name to null. -/
theorem readChoice_eq_ok_iff {α : Type} {choices : List (String × α)} {v : Value} {a : α} :
    readChoice choices v = .ok a ↔
      ∃ name, choices.lookup name = some a ∧ (v = .string name ∨ v = .object [(name, .null)]) := by
  simp only [← pick_eq_ok_iff]
  cases v with
  | string name => simp [readChoice]
  | object entries =>
    match entries with
    | [(name, content)] =>
      have hform : (∃ name', pick choices name' = .ok a ∧
          (Value.object [(name, content)] = .string name' ∨
            Value.object [(name, content)] = .object [(name', .null)])) ↔
          pick choices name = .ok a ∧ content = .null := by
        simp
      rw [hform]
      cases hpick : pick choices name with
      | error e => simp [readChoice, hpick]
      | ok b => cases content <;> simp [readChoice, hpick]
    | [] => simp [readChoice]
    | _ :: _ :: _ => simp [readChoice]
  | _ => simp [readChoice]

/-- Why an alternative is refused: its name is not known, it holds something, or it is neither a text
nor an object with one key. -/
theorem readChoice_error_cases {α : Type} {choices : List (String × α)} {v : Value}
    {e : ShapeError} (h : readChoice choices v = .error e) :
    (∃ name, (v = .string name ∨ ∃ content, v = .object [(name, content)]) ∧
        e = .unknownChoice name (choices.map (·.1))) ∨
      (∃ name content, v = .object [(name, content)] ∧ e = .wrongKind content .nothing) ∨
      e = .notOneKey ∨ e = .wrongKind v .choice := by
  have hpick : ∀ {name e}, pick choices name = .error e →
      e = .unknownChoice name (choices.map (·.1)) := by
    intro name e h
    rw [pick] at h
    split at h <;> cases h
    rfl
  cases v with
  | string name => exact .inl ⟨name, .inl rfl, hpick h⟩
  | object entries =>
    match entries with
    | [(name, content)] =>
      cases hname : pick choices name with
      | error fault =>
        simp only [readChoice, hname, Except.error.injEq] at h
        exact .inl ⟨name, .inr ⟨content, rfl⟩, h ▸ hpick hname⟩
      | ok a =>
        refine .inr (.inl ⟨name, content, rfl, ?_⟩)
        cases content <;> simp only [readChoice, hname] at h <;> cases h <;> rfl
    | [] =>
      cases h
      exact .inr (.inr (.inl rfl))
    | _ :: _ :: _ =>
      cases h
      exact .inr (.inr (.inl rfl))
  | _ =>
    cases h
    exact .inr (.inr (.inr rfl))

/-! ## Fields -/

namespace Field

variable {α : Type} {name : String} {read : Value → Reading α} {entries : List (String × Value)}

theorem get_required_iff {a : α} :
    (required name read).get entries = .ok a ↔
      ∃ v, Value.lookup name entries = some v ∧ read v = .ok a := by
  rw [get, required]
  cases Value.lookup name entries <;> simp

theorem get_defaulted_iff {default a : α} :
    (defaulted name read default).get entries = .ok a ↔
      (Value.lookup name entries = none ∧ a = default) ∨
        ∃ v, Value.lookup name entries = some v ∧ read v = .ok a := by
  rw [get, defaulted]
  cases Value.lookup name entries <;> simp [eq_comm]

end Field

/-- What the entries of an object hold for a field passes: a value that can be read, or nothing where
that is allowed. -/
def FieldShape.Passes (field : FieldShape) (entries : List (String × Value)) : Prop :=
  match Value.lookup field.name entries with
  | some v => field.check v = .ok ()
  | none => field.mayLackInObject = true

/-- A field passes exactly when it can be got. -/
theorem Field.passes_shape_iff {α : Type} {f : Field α} {entries : List (String × Value)} :
    f.shape.Passes entries ↔ ∃ a, f.get entries = .ok a := by
  rw [FieldShape.Passes, Field.get]
  show (match Value.lookup f.name entries with
    | some v => (f.read v).map (fun _ => ()) = .ok ()
    | none => f.shape.mayLackInObject = true) ↔ _
  cases Value.lookup f.name entries with
  | some v => simp [Reading.map_eq_ok_iff]
  | none =>
    rw [Field.shape]
    cases f.absence <;> simp

/-! ## Records -/

namespace RecordShape

variable {r : RecordShape} {entries : List (String × Value)} {e : ShapeError}

/-- Entries pass if each of them does. -/
theorem checkEntries_eq_ok_iff :
    r.checkEntries entries = .ok () ↔ ∀ entry ∈ entries, r.checkEntry entry.1 entry.2 = .ok () := by
  induction entries with
  | nil => simp [checkEntries]
  | cons entry rest ih =>
    rw [checkEntries, List.forall_mem_cons, ← ih]
    cases r.checkEntry entry.1 entry.2 <;> simp

/-- Entries are refused for the first one that is. -/
theorem checkEntries_eq_error_iff :
    r.checkEntries entries = .error e ↔
      FirstFails (fun entry => r.checkEntry entry.1 entry.2 = .ok ())
        (fun entry => r.checkEntry entry.1 entry.2 = .error e) entries := by
  induction entries with
  | nil => exact ⟨nofun, nofun⟩
  | cons entry rest ih =>
    rw [checkEntries, FirstFails.cons_iff, ← ih]
    cases r.checkEntry entry.1 entry.2 <;> simp

/-- The field with a name, if no two fields share one. -/
theorem find?_eq_some_iff (hnd : r.names.Nodup) {name : String} {field : FieldShape} :
    r.fields.find? (·.name = name) = some field ↔ field ∈ r.fields ∧ field.name = name := by
  constructor
  · intro h
    exact ⟨List.mem_of_find?_eq_some h, by simpa using List.find?_some h⟩
  · rintro ⟨hfield, rfl⟩
    cases hfind : r.fields.find? (·.name = field.name) with
    | none => simpa using List.find?_eq_none.mp hfind field hfield
    | some found =>
      have hname : found.name = field.name := by simpa using List.find?_some hfind
      have hfound := List.mem_of_find?_eq_some hfind
      rw [List.inj_on_of_nodup_map hnd hfound hfield hname]

section Closed

variable {name : String} {v : Value} (hnd : r.names.Nodup) (hclosed : r.closed = true)

include hnd hclosed

/-- What a closed record makes of an entry: an error if its key is no name of a field, and what the field
makes of its value otherwise. -/
theorem checkEntry_cases (name : String) (v : Value) :
    (name ∉ r.names ∧ r.checkEntry name v = .error (.unknownField name r.names)) ∨
      ∃ field ∈ r.fields, field.name = name ∧ r.checkEntry name v = field.check v := by
  rw [checkEntry]
  cases hfind : r.fields.find? (·.name = name) with
  | none =>
    have hname : name ∉ r.names := by
      rw [names, List.mem_map]
      rintro ⟨field, hfield, heq⟩
      simpa [heq] using List.find?_eq_none.mp hfind field hfield
    exact .inl ⟨hname, if_pos hclosed⟩
  | some field =>
    obtain ⟨hfield, hname⟩ := (find?_eq_some_iff hnd).mp hfind
    exact .inr ⟨field, hfield, hname, rfl⟩

/-- A closed record takes an entry if its key is the name of a field that takes its value. -/
theorem checkEntry_eq_ok_iff :
    r.checkEntry name v = .ok () ↔
      ∃ field ∈ r.fields, field.name = name ∧ field.check v = .ok () := by
  rcases checkEntry_cases hnd hclosed name v with
    ⟨hname, heq⟩ | ⟨field, hfield, hname, heq⟩
  · rw [heq]
    refine iff_of_false nofun ?_
    rintro ⟨field, hfield, hfieldname, -⟩
    exact hname (hfieldname ▸ List.mem_map_of_mem hfield)
  · rw [heq]
    constructor
    · intro h
      exact ⟨field, hfield, hname, h⟩
    · rintro ⟨field', hfield', hname', h⟩
      rwa [List.inj_on_of_nodup_map hnd hfield hfield' (hname.trans hname'.symm)]

/-- A closed record refuses an entry for its key, or for what the field says of its value. -/
theorem checkEntry_eq_error_iff :
    r.checkEntry name v = .error e ↔
      (name ∉ r.names ∧ e = .unknownField name r.names) ∨
        ∃ field ∈ r.fields, field.name = name ∧ field.check v = .error e := by
  rcases checkEntry_cases hnd hclosed name v with
    ⟨hname, heq⟩ | ⟨field, hfield, hname, heq⟩
  · rw [heq, Except.error.injEq, eq_comm]
    constructor
    · intro h
      exact .inl ⟨hname, h⟩
    · rintro (⟨-, h⟩ | ⟨field, hfield, hfieldname, -⟩)
      · exact h
      · exact absurd (hfieldname ▸ List.mem_map_of_mem hfield) hname
  · rw [heq]
    constructor
    · intro h
      exact .inr ⟨field, hfield, hname, h⟩
    · rintro (⟨hunknown, -⟩ | ⟨field', hfield', hname', h⟩)
      · exact absurd (hname ▸ List.mem_map_of_mem hfield) hunknown
      · rwa [List.inj_on_of_nodup_map hnd hfield hfield' (hname.trans hname'.symm)]

end Closed

theorem missing?_eq_none_iff :
    r.missing? entries = none ↔
      ∀ field ∈ r.fields, Value.lookup field.name entries = none → field.mayLackInObject = true := by
  rw [missing?, List.find?_eq_none]
  refine forall_congr' fun field => imp_congr_right fun _ => ?_
  cases Value.lookup field.name entries <;> simp

/-! ### The object form -/

theorem entries_object_eq_ok_iff_checks {read : List (String × Value)} :
    r.entries (.object entries) = .ok read ↔
      read = entries ∧ r.checkEntries entries = .ok () ∧ r.missing? entries = none := by
  rw [RecordShape.entries, Reading.bind_eq_ok_iff]
  constructor
  · rintro ⟨_, hcheck, h⟩
    cases hmissing : r.missing? entries with
    | none =>
      rw [hmissing] at h
      cases h
      exact ⟨rfl, hcheck, rfl⟩
    | some field => simp [hmissing] at h
  · rintro ⟨rfl, hcheck, hmissing⟩
    exact ⟨(), hcheck, by rw [hmissing]⟩

/-- An object is refused for an entry, or else for a field that it lacks. -/
theorem entries_object_eq_error_iff :
    r.entries (.object entries) = .error e ↔
      r.checkEntries entries = .error e ∨
        r.checkEntries entries = .ok () ∧
          ∃ field, r.missing? entries = some field ∧ e = .missingField field.name := by
  rw [RecordShape.entries, Reading.bind_eq_error_iff]
  refine or_congr Iff.rfl ?_
  cases r.missing? entries with
  | none => simp
  | some field =>
    constructor
    · rintro ⟨_, hcheck, h⟩
      cases h
      exact ⟨hcheck, field, rfl, rfl⟩
    · rintro ⟨hcheck, _, hfield, rfl⟩
      cases hfield
      exact ⟨(), hcheck, rfl⟩

/-- Every field of an object that is read passes. -/
theorem passes_of_entries_object (hnd : r.names.Nodup) {read : List (String × Value)}
    (h : r.entries (.object entries) = .ok read) :
    read = entries ∧ ∀ field ∈ r.fields, field.Passes entries := by
  obtain ⟨heq, hcheck, hmissing⟩ := entries_object_eq_ok_iff_checks.mp h
  refine ⟨heq, fun field hfield => ?_⟩
  rw [FieldShape.Passes]
  cases hv : Value.lookup field.name entries with
  | none => exact missing?_eq_none_iff.mp hmissing field hfield hv
  | some v =>
    have hentry := checkEntries_eq_ok_iff.mp hcheck _ (Value.mem_of_lookup hv)
    rwa [checkEntry, (find?_eq_some_iff hnd).mpr ⟨hfield, rfl⟩] at hentry

/-- An object that has no other keys than the names of the fields is read if every field passes. -/
theorem entries_object_of_passes (hnd : r.names.Nodup) (hkeys : (entries.map Prod.fst).Nodup)
    (hknown : ∀ entry ∈ entries, entry.1 ∈ r.names)
    (hpasses : ∀ field ∈ r.fields, field.Passes entries) :
    r.entries (.object entries) = .ok entries := by
  refine entries_object_eq_ok_iff_checks.mpr ⟨rfl, checkEntries_eq_ok_iff.mpr ?_,
    missing?_eq_none_iff.mpr ?_⟩
  · intro entry hentry
    obtain ⟨field, hfield, hname⟩ := List.mem_map.mp (hknown entry hentry)
    -- no key is repeated, so the value of the entry is what its field looks at
    have hlookup := Value.lookup_of_mem hkeys hentry
    have h := hpasses field hfield
    rw [FieldShape.Passes, hname, hlookup] at h
    rwa [checkEntry, (find?_eq_some_iff hnd).mpr ⟨hfield, hname⟩]
  · intro field hfield hv
    have h := hpasses field hfield
    rwa [FieldShape.Passes, hv] at h

/-- A closed record is read from an object that has no other keys than the names of the fields, if every
field passes. -/
theorem entries_object_eq_ok_iff (hnd : r.names.Nodup) (hclosed : r.closed = true)
    (hkeys : (entries.map Prod.fst).Nodup) {read : List (String × Value)} :
    r.entries (.object entries) = .ok read ↔
      read = entries ∧ (∀ entry ∈ entries, entry.1 ∈ r.names) ∧
        ∀ field ∈ r.fields, field.Passes entries := by
  constructor
  · intro h
    obtain ⟨heq, hpasses⟩ := passes_of_entries_object hnd h
    refine ⟨heq, fun entry hentry => ?_, hpasses⟩
    have hcheck := (entries_object_eq_ok_iff_checks.mp h).2.1
    obtain ⟨field, hfield, hname, -⟩ :=
      (checkEntry_eq_ok_iff hnd hclosed).mp (checkEntries_eq_ok_iff.mp hcheck entry hentry)
    exact hname ▸ List.mem_map_of_mem hfield
  · rintro ⟨rfl, hknown, hpasses⟩
    exact entries_object_of_passes hnd hkeys hknown hpasses

/-! ### The array form -/

theorem shortAt?_eq_none_iff {length : Nat} :
    r.shortAt? length = none ↔
      ∀ i (h : i < r.fields.length), length ≤ i → r.fields[i].mayLackInArray = true := by
  rw [shortAt?, Option.map_eq_none_iff, List.find?_eq_none]
  constructor
  · intro h i hi hlength
    have hmem : (r.fields[i], i) ∈ r.fields.zipIdx := by simp [List.mem_zipIdx_iff_getElem?, hi]
    simpa [hlength] using h _ hmem
  · rintro h ⟨field, i⟩ hfield
    obtain ⟨hi, heq⟩ : ∃ hi : i < r.fields.length, r.fields[i] = field :=
      List.getElem?_eq_some_iff.mp (List.mem_zipIdx_iff_getElem?.mp hfield)
    subst heq
    by_cases hlength : length ≤ i
    · simp [h i hi hlength]
    · simp [hlength]

/-- An array with one element for each field is read as the object with the names of the fields. -/
theorem entries_array_of_length {items : List Value} (h : items.length = r.fields.length) :
    r.entries (.array items) = r.entries (.object (r.names.zip items)) := by
  have hshort : r.shortAt? items.length = none := by
    rw [shortAt?_eq_none_iff]
    omega
  have hmissing : r.missing? (r.names.zip items) = none := by
    rw [missing?_eq_none_iff]
    intro field hfield hnone
    rw [Value.lookup_eq_none_iff, List.map_fst_zip (by simp [names, h])] at hnone
    exact absurd (List.mem_map_of_mem hfield) hnone
  rw [RecordShape.entries, RecordShape.entries, hshort, hmissing, h]
  simp

/-- An array that is read does not go on after the last field and does not end before a field that it
must have. -/
theorem length_of_entries_array {items : List Value} {read : List (String × Value)}
    (h : r.entries (.array items) = .ok read) :
    r.shortAt? items.length = none ∧ items.length ≤ r.fields.length := by
  rw [RecordShape.entries] at h
  obtain ⟨_, -, h⟩ := Reading.bind_eq_ok_iff.mp h
  cases hshort : r.shortAt? items.length with
  | some i => simp [hshort] at h
  | none =>
    by_cases hlong : r.fields.length < items.length
    · simp [hshort, hlong] at h
    · exact ⟨rfl, Nat.le_of_not_lt hlong⟩

/-- An array is refused for an element, or else for its length. -/
theorem error_of_entries_array {items : List Value} (h : r.entries (.array items) = .error e) :
    r.checkEntries (r.names.zip items) = .error e ∨
      (∃ i, e = .tooShort r.name r.fields.length i) ∨ e = .tooLong items.length := by
  rw [RecordShape.entries] at h
  rcases Reading.bind_eq_error_iff.mp h with hcheck | ⟨_, -, h⟩
  · exact .inl hcheck
  · right
    cases hshort : r.shortAt? items.length with
    | some i =>
      rw [hshort] at h
      cases h
      exact .inl ⟨i, rfl⟩
    | none =>
      by_cases hlong : r.fields.length < items.length
      · simp [hshort, hlong] at h
        exact .inr h.symm
      · simp [hshort, hlong] at h

end RecordShape

end ForeignKey
