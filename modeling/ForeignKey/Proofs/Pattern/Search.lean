import ForeignKey.Proofs.Pattern.Congruence

/-!
# Searching finds what collecting lists

The search for a value stops at the first node that equals it, while collecting walks on to the end; they
agree on every document. What neither can pass is a dead end: a key that is not there, a key step on
something that is no object, a fan-out over something that is no array. The walk reaches nothing exactly
when every branch of it runs into one.
-/

namespace ForeignKey

/-! ## Dead ends -/

/-- Every branch of the walk along the segments runs into a step that the document does not allow. -/
inductive Segment.DeadEnds : List Segment → Value → Prop where
  | missingKey {name : String} {rest : List Segment} {entries : List (String × Value)}
    (h : name ∉ entries.map Prod.fst) : DeadEnds (.key name :: rest) (.object entries)
  | keyOutsideObject {name : String} {rest : List Segment} {node : Value}
    (h : node.entries? = none) : DeadEnds (.key name :: rest) node
  | eachOutsideArray {rest : List Segment} {node : Value} (h : node.items? = none) :
    DeadEnds (.each :: rest) node
  | under {name : String} {rest : List Segment} {node child : Value}
    (hchild : node.field? name = some child) (h : DeadEnds rest child) :
    DeadEnds (.key name :: rest) node
  | everywhere {rest : List Segment} {items : List Value} (h : ∀ item ∈ items, DeadEnds rest item) :
    DeadEnds (.each :: rest) (.array items)

/-- Every branch of the pattern's walk runs into a step that the document does not allow. -/
def Pattern.DeadEnds (p : Pattern) (document : Value) : Prop :=
  Segment.DeadEnds p.segments document

namespace Segment

variable {s : Segment} {rest segments : List Segment} {node : Value}

theorem deadEnds_key_iff {name : String} :
    DeadEnds (.key name :: rest) node ↔ ∀ child, node.field? name = some child → DeadEnds rest child := by
  constructor
  · intro h child hchild
    cases h with
    | missingKey hname =>
      rw [Value.field?_object, Value.lookup_eq_none_iff.mpr hname] at hchild
      cases hchild
    | keyOutsideObject hnode => cases node <;> simp_all [Value.field?, Value.entries?]
    | under hchild' h =>
      obtain rfl := Option.some.inj (hchild.symm.trans hchild')
      exact h
  · intro h
    cases hchild : node.field? name with
    | some child => exact .under hchild (h child hchild)
    | none =>
      cases node with
      | object entries => exact .missingKey (Value.lookup_eq_none_iff.mp hchild)
      | _ => exact .keyOutsideObject rfl

theorem deadEnds_each_iff :
    DeadEnds (.each :: rest) node ↔
      ∀ items, node.items? = some items → ∀ item ∈ items, DeadEnds rest item := by
  constructor
  · intro h items hitems
    cases h with
    | eachOutsideArray hnode =>
      rw [hnode] at hitems
      cases hitems
    | everywhere h =>
      cases hitems
      exact h
  · intro h
    cases node with
    | array items => exact .everywhere (h items rfl)
    | _ => exact .eachOutsideArray rfl

/-- A walk dead-ends if it does below every child that its first segment leads to. -/
theorem deadEnds_cons_iff :
    DeadEnds (s :: rest) node ↔ ∀ c ∈ s.children node, DeadEnds rest c.2 := by
  cases s with
  | key name =>
    rw [deadEnds_key_iff, children]
    cases node.field? name <;> simp
  | each =>
    rw [deadEnds_each_iff, children]
    cases node.items? with
    | none => simp
    | some items =>
      show _ ↔ ∀ c ∈ indexed items, DeadEnds rest c.2
      rw [← List.forall_mem_map (f := Prod.snd) (P := DeadEnds rest), map_snd_indexed]
      simp

theorem reached_eq_nil_iff : reached segments node = [] ↔ DeadEnds segments node := by
  induction segments generalizing node with
  | nil => exact ⟨nofun, nofun⟩
  | cons s rest ih =>
    rw [reached_cons, List.flatMap_eq_nil_iff, deadEnds_cons_iff]
    simp only [ih]

/-- What a walk reaches in a document without repeated keys has none either. -/
theorem uniqueKeys_of_mem_reached (hnode : node.UniqueKeys) {v : Value}
    (hv : v ∈ reached segments node) : v.UniqueKeys := by
  rw [← map_snd_located] at hv
  obtain ⟨r, hr, rfl⟩ := List.mem_map.mp hv
  have hsame := located_congr segments ⟨hnode, Value.equal_refl hnode⟩
  exact (List.forall₂_same.mp hsame r hr).2.uniqueKeys

end Segment

/-! ## Searching -/

namespace Pattern

variable {p : Pattern} {v document : Value}

theorem occurs_iff_exists_collect :
    p.occurs v document = true ↔ ∃ x ∈ p.collect document, x.equal v = true := by
  rw [occurs_eq_any_collect, List.any_eq_true]

theorem uniqueKeys_of_mem_collect (hdocument : document.UniqueKeys) (hv : v ∈ p.collect document) :
    v.UniqueKeys :=
  Segment.uniqueKeys_of_mem_reached hdocument hv

theorem occurs_of_mem_collect (hdocument : document.UniqueKeys) (hv : v ∈ p.collect document) :
    p.occurs v document = true :=
  occurs_iff_exists_collect.mpr ⟨v, hv, Value.equal_refl (uniqueKeys_of_mem_collect hdocument hv)⟩

theorem collect_eq_nil_iff : p.collect document = [] ↔ p.DeadEnds document :=
  Segment.reached_eq_nil_iff

/-- A value is found exactly when one of the collected values equals it. So every collected value is
found, the root pattern finds what equals the document, and a pattern whose walk meets a dead end on every
branch collects nothing and finds nothing. -/
theorem search_finds_collected (p : Pattern) (v document : Value) :
    (p.occurs v document = true ↔ ∃ x ∈ p.collect document, x.equal v = true) ∧
    (document.UniqueKeys → ∀ x ∈ p.collect document, p.occurs x document = true) ∧
    (document.UniqueKeys → v.UniqueKeys →
      (root.occurs v document = true ↔ v.equal document = true)) ∧
    (p.DeadEnds document ↔ p.collect document = []) ∧
    (p.DeadEnds document → p.occurs v document = false) := by
  refine ⟨occurs_iff_exists_collect, fun hdocument _ => occurs_of_mem_collect hdocument, ?_,
    collect_eq_nil_iff.symm, ?_⟩
  · intro hdocument hv
    rw [occurs_root]
    exact ⟨Value.equal_symm hdocument, Value.equal_symm hv⟩
  · intro h
    rw [occurs_eq_any_collect, collect_eq_nil_iff.mpr h]
    rfl

/-- In `{"cars": [{"id": {"n": 1}}, 7]}` the id is found, and `cars.[].id.[]` dead-ends: the first car's
id is no array, and the second car has no id. -/
theorem search_in_irregular_cars :
    let id : Value := .object [("n", .ofNat 1)]
    let document : Value := .object [("cars", .array [.object [("id", id)], .ofNat 7])]
    document.UniqueKeys ∧ (parse "cars.[].id").occurs id document = true ∧
      (root.occurs id document = true ↔ id.equal document = true) ∧
      (parse "cars.[].id.[]").DeadEnds document ∧
      (parse "cars.[].id.[]").occurs id document = false := by
  intro id document
  have hdocument : document.UniqueKeys := by decide
  obtain ⟨-, hcollected, hroot, -, -⟩ := search_finds_collected (parse "cars.[].id") id document
  obtain ⟨-, -, -, -, hdead⟩ := search_finds_collected (parse "cars.[].id.[]") id document
  have hcollect : (parse "cars.[].id").collect document = [id] := by
    have hsegments : (parse "cars.[].id").segments = [.key "cars", .each, .key "id"] := by decide
    rw [collect, hsegments]
    rfl
  have hid : id ∈ (parse "cars.[].id").collect document := by
    rw [hcollect]
    exact List.mem_singleton_self id
  have hends : (parse "cars.[].id.[]").DeadEnds document := by
    have hsegments :
        (parse "cars.[].id.[]").segments = [.key "cars", .each, .key "id", .each] := by decide
    rw [DeadEnds, hsegments]
    refine .under rfl (.everywhere ?_)
    rw [List.forall_mem_cons, List.forall_mem_singleton]
    exact ⟨.under rfl (.eachOutsideArray rfl), .keyOutsideObject rfl⟩
  exact ⟨hdocument, hcollected hdocument id hid, hroot hdocument (by decide), hends, hdead hends⟩

end Pattern

end ForeignKey
