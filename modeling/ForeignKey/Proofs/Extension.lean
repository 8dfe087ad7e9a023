import Mathlib.Data.List.Flatten
import ForeignKey.Proofs.Validation

/-!
# Adding data

A document is extended by adding elements to its arrays and entries to its objects, at any depth. What a
walk reaches in the document it reaches in the extension as well, extended in its turn; a scalar has
nothing to add to, so it stays what it is. Main statement: a validation against the extension reports no
violation of a scalar that a validation against the document does not report. Arrays and objects can be
lost, for they are compared as a whole.
-/

namespace ForeignKey

/-! ## Extensions -/

namespace Value

mutual

/-- Whether the second value has all that is in the first one. -/
def extendedBy : Value → Value → Bool
  | .array as, .array bs => itemsExtendedBy as bs
  | .array _, _ => false
  | .object as, .object bs => entriesExtendedBy as bs
  | .object _, _ => false
  | scalar, b => scalar.equal b
termination_by structural v => v

/-- Every element of the first array is extended by some element of the second. -/
def itemsExtendedBy : List Value → List Value → Bool
  | [], _ => true
  | a :: as, bs => (bs.any fun b => extendedBy a b) && itemsExtendedBy as bs
termination_by structural items => items

/-- Every entry of the first object is in the second under the same key, extended. -/
def entriesExtendedBy : List (String × Value) → List (String × Value) → Bool
  | [], _ => true
  | entry :: rest, bs => entryExtendedBy entry bs && entriesExtendedBy rest bs
termination_by structural entries => entries

/-- The second object has an extension of the value under the key of the entry. -/
def entryExtendedBy : String × Value → List (String × Value) → Bool
  | (key, v), bs =>
    match lookup key bs with
    | some w => extendedBy v w
    | none => false
termination_by structural entry => entry

end

variable {a b : Value}

theorem itemsExtendedBy_iff {as bs : List Value} :
    itemsExtendedBy as bs = true ↔ ∀ a ∈ as, ∃ b ∈ bs, a.extendedBy b = true := by
  induction as with
  | nil => simp [itemsExtendedBy]
  | cons a as ih => rw [itemsExtendedBy, Bool.and_eq_true, ih, List.any_eq_true, List.forall_mem_cons]

theorem entryExtendedBy_iff {e : String × Value} {bs : List (String × Value)} :
    entryExtendedBy e bs = true ↔ ∃ w, lookup e.1 bs = some w ∧ e.2.extendedBy w = true := by
  rw [entryExtendedBy]
  cases lookup e.1 bs <;> simp

theorem entriesExtendedBy_iff {as bs : List (String × Value)} :
    entriesExtendedBy as bs = true ↔
      ∀ e ∈ as, ∃ w, lookup e.1 bs = some w ∧ e.2.extendedBy w = true := by
  induction as with
  | nil => simp [entriesExtendedBy]
  | cons e as ih =>
    rw [entriesExtendedBy, Bool.and_eq_true, ih, entryExtendedBy_iff, List.forall_mem_cons]

/-- An array is extended by arrays. -/
theorem exists_items_of_extendedBy {as : List Value} (h : (array as).extendedBy b = true) :
    ∃ bs, b = .array bs ∧ ∀ a ∈ as, ∃ b ∈ bs, a.extendedBy b = true := by
  cases b with
  | array bs => exact ⟨bs, rfl, itemsExtendedBy_iff.mp h⟩
  | _ => cases h

/-- An object is extended by objects. -/
theorem exists_entries_of_extendedBy {as : List (String × Value)}
    (h : (object as).extendedBy b = true) :
    ∃ bs, b = .object bs ∧ ∀ e ∈ as, ∃ w, lookup e.1 bs = some w ∧ e.2.extendedBy w = true := by
  cases b with
  | object bs => exact ⟨bs, rfl, entriesExtendedBy_iff.mp h⟩
  | _ => cases h

theorem exists_scalarKey? (h : a.isComposite = false) : ∃ key, a.scalarKey? = some key := by
  rw [← Option.ne_none_iff_exists', Ne, scalarKey?_eq_none_iff, h]
  exact Bool.false_ne_true

/-- What extends a scalar is the same scalar. -/
theorem scalarKey?_eq_of_extendedBy (h : a.extendedBy b = true) : a.scalarKey? = b.scalarKey? := by
  cases a with
  | array as =>
    obtain ⟨bs, rfl, -⟩ := exists_items_of_extendedBy h
    rfl
  | object as =>
    obtain ⟨bs, rfl, -⟩ := exists_entries_of_extendedBy h
    rfl
  | null | bool | number | string => exact scalarKey?_eq_of_equal h

end Value

/-! ## Walks -/

variable {a b v : Value}

/-- To every child of a node a segment leads to an extension of it in the extended node. -/
theorem Segment.exists_child_of_extendedBy (h : a.extendedBy b = true) {s : Segment} {c : Step × Value}
    (hc : c ∈ s.children a) : ∃ d ∈ s.children b, c.2.extendedBy d.2 = true := by
  cases s with
  | key name =>
    cases a with
    | object as =>
      obtain ⟨bs, rfl, hentries⟩ := Value.exists_entries_of_extendedBy h
      rw [children, Value.field?_object] at hc
      cases hlookup : Value.lookup name as with
      | none =>
        rw [hlookup] at hc
        cases hc
      | some child =>
        rw [hlookup] at hc
        obtain rfl := List.mem_singleton.mp hc
        obtain ⟨w, hw, hext⟩ := hentries _ (Value.mem_of_lookup hlookup)
        refine ⟨(.key name, w), ?_, hext⟩
        rw [children, Value.field?_object, hw]
        exact List.mem_singleton_self _
    | _ => cases hc
  | each =>
    cases a with
    | array as =>
      obtain ⟨bs, rfl, hitems⟩ := Value.exists_items_of_extendedBy h
      have hmem : c.2 ∈ as := by
        rw [← map_snd_indexed as]
        exact List.mem_map_of_mem hc
      obtain ⟨w, hw, hext⟩ := hitems c.2 hmem
      rw [← map_snd_indexed bs] at hw
      obtain ⟨d, hd, rfl⟩ := List.mem_map.mp hw
      exact ⟨d, hd, hext⟩
    | _ => cases hc

/-- Where a scalar occurs in a document, it occurs in every extension. -/
theorem Segment.occurs_of_extendedBy (hv : v.isComposite = false) (segments : List Segment)
    (h : a.extendedBy b = true) (hoccurs : occurs v segments a = true) :
    occurs v segments b = true := by
  induction segments generalizing a b with
  | nil =>
    obtain ⟨key, hkey⟩ := Value.exists_scalarKey? hv
    have ha : a.scalarKey? = some key := (Value.equal_iff_of_scalarKey? hkey).mp hoccurs
    rw [Value.scalarKey?_eq_of_extendedBy h] at ha
    exact (Value.equal_iff_of_scalarKey? hkey).mpr ha
  | cons s rest ih =>
    rw [occurs_cons, List.any_eq_true] at hoccurs ⊢
    obtain ⟨c, hc, hoccurs⟩ := hoccurs
    obtain ⟨d, hd, hext⟩ := exists_child_of_extendedBy h hc
    exact ⟨d, hd, ih hext hoccurs⟩

/-! ## Validations -/

/-- Whether the value of a violation is a scalar. -/
def Violation.concernsScalar (x : Violation) : Bool := x.value?.any fun v => !v.isComposite

variable {document extension : Value}

namespace Binding

variable (b : Binding) (target : Value)

/-- A scalar that an extension lacks is missing in the document, with the same violation. -/
theorem violation?_of_extendedBy (h : document.extendedBy extension = true)
    (found : Location × Value) (x : Violation) (hx : b.violation? extension found = some x)
    (hscalar : x.concernsScalar = true) : b.violation? document found = some x := by
  rw [violation?] at hx ⊢
  split at hx
  · cases hx
  · next hmissing =>
    cases hx
    have hv : found.2.isComposite = false := by
      simpa [Violation.concernsScalar] using hscalar
    refine if_neg fun hfound => hmissing ?_
    obtain ⟨p, hp, hoccurs⟩ := List.any_eq_true.mp hfound
    exact List.any_eq_true.mpr ⟨p, hp, Segment.occurs_of_extendedBy hv p.segments h hoccurs⟩

/-- The violations of scalars against an extension are some of those against the document, in order. -/
theorem violations_of_extendedBy (h : document.extendedBy extension = true) :
    ((b.violations target extension).filter Violation.concernsScalar).Sublist
      (b.violations target document) := by
  rw [violations, violations]
  split
  · exact List.nil_sublist _
  · rw [List.filterMap_eq_flatMap_toList, List.filterMap_eq_flatMap_toList, List.filter_flatMap]
    refine List.Sublist.flatMap_right _ fun found _ => ?_
    rw [← Option.toList_filter]
    cases hx : (b.violation? extension found).filter Violation.concernsScalar with
    | none => exact List.nil_sublist _
    | some x =>
      obtain ⟨hx, hscalar⟩ := Option.filter_eq_some_iff.mp hx
      rw [b.violation?_of_extendedBy h found x hx hscalar]

/-- A binding by itself, over a fresh context. -/
theorem errors_validate_over (document : Value) :
    (b.validate target (some (.over document))).errors = b.violations target document :=
  (b.validate_reports target (Context.sound_over document)).errors_eq

end Binding

/-- A scalar that occurs in a document occurs in whatever extends it. So of the violations of scalars that
a validation over a fresh context finds against the extension, each is also found against the document, by
the same binding, at the same path and for the same value, in the same order. -/
theorem validate_extension (h : document.extendedBy extension = true) :
    (∀ (p : Pattern) (v : Value), v.isComposite = false →
      p.occurs v document = true → p.occurs v extension = true) ∧
    (∀ (rules : RuleSet) (target lookedUp : Value),
      (rules.validate target (some (.over lookedUp))).report.errors =
        rules.references.flatMap fun b => (b.validate target (some (.over lookedUp))).errors) ∧
    (∀ (b : Binding) (target : Value),
      ((b.validate target (some (.over extension))).errors.filter Violation.concernsScalar).Sublist
        (b.validate target (some (.over document))).errors) ∧
    (∀ (rules : RuleSet) (target : Value),
      ((rules.validate target (some (.over extension))).report.errors.filter
          Violation.concernsScalar).Sublist
        (rules.validate target (some (.over document))).report.errors) := by
  refine ⟨fun p v hv => Segment.occurs_of_extendedBy hv p.segments h, fun rules target lookedUp => ?_,
    fun b target => ?_, fun rules target => ?_⟩
  · simp only [Binding.errors_validate_over]
    exact rules.errors_validate_over target lookedUp
  · rw [b.errors_validate_over, b.errors_validate_over]
    exact b.violations_of_extendedBy target h
  · rw [rules.errors_validate_over, rules.errors_validate_over, RuleSet.violations, RuleSet.violations,
      List.filter_flatMap]
    exact List.Sublist.flatMap_right _ fun b _ => b.violations_of_extendedBy target h

/-- The extension has a make and an entry of the known spec more, and an integer as a double. So a Ford is
found, and the spec, an object, is not found any more. -/
theorem validate_extension_of_makes :
    let one : Value := .number (.double ⟨false, ⟨1023, by decide⟩, ⟨0, by decide⟩⟩)
    let document : Value :=
      .object [("makes", .array [.string "nissan"]), ("spec", .object [("doors", .ofNat 1)])]
    let extension : Value :=
      .object [("spec", .object [("seats", .ofNat 2), ("doors", one)]), ("planes", .null),
        ("makes", .array [.string "ford", .string "nissan"])]
    let target : Value := .object [("cars", .array [.string "ford", .string "kia"]),
      ("spec", .object [("doors", .ofNat 1)])]
    let rules : RuleSet :=
      ⟨[⟨"cars.[]", .string, .single "makes.[]"⟩, ⟨"spec", .string, .single "spec"⟩]⟩
    let errors (lookedUp : Value) := (rules.validate target (some (.over lookedUp))).report.errors
    document.extendedBy extension = true ∧
      (errors document).map (·.path) = ["cars[0]", "cars[1]"] ∧
      (errors extension).map (·.path) = ["cars[1]", "spec"] ∧
      ((errors extension).filter Violation.concernsScalar).map (·.path) = ["cars[1]"] ∧
      ((errors extension).filter Violation.concernsScalar).Sublist (errors document) := by
  intro one document extension target rules errors
  have hextends : document.extendedBy extension = true := by decide
  obtain ⟨-, -, -, hsublist⟩ := validate_extension hextends
  have herrors (lookedUp : Value) : errors lookedUp = rules.violations target lookedUp :=
    rules.errors_validate_over target lookedUp
  refine ⟨hextends, ?_, ?_, ?_, hsublist rules target⟩
  all_goals
    rw [herrors]
    rfl

end ForeignKey
