import ForeignKey.Proofs.Parsing

/-!
# Documents repeat no key

No object of a document that is read from a text names a key twice, at any depth. An object is put
together entry by entry, from those of its mapping and from those that are merged into it, and each
value in it is the value of a node of the tree.
-/

namespace ForeignKey

namespace Yaml

/-! ## Nodes -/

namespace Node

/-- Induction over a tree of nodes, with the hypothesis for all items of a sequence and for the values
of all entries of a mapping. -/
theorem induct {motive : Node → Prop} (scalar : ∀ style kind? text, motive (.scalar style kind? text))
    (sequence : ∀ items, (∀ n ∈ items, motive n) → motive (.sequence items))
    (mapping : ∀ entries, (∀ e ∈ entries, motive e.2) → motive (.mapping entries)) (n : Node) :
    motive n := by
  refine @Node.rec motive (fun items => ∀ n ∈ items, motive n)
    (fun entries => ∀ e ∈ entries, motive e.2) (fun e => motive e.2) scalar sequence mapping
    ?_ ?_ ?_ ?_ (fun _ _ _ h => h) n
  · simp
  · intro head tail hhead htail
    exact List.forall_mem_cons.mpr ⟨hhead, htail⟩
  · simp
  · intro head tail hhead htail
    exact List.forall_mem_cons.mpr ⟨hhead, htail⟩

end Node

/-! ## Objects -/

/-- The values of entries, as far as there are any, repeat no key. -/
def HaveUniqueKeys (es : List MappingEntry) : Prop :=
  ∀ e ∈ es, ∀ v, e.value? = some v → v.UniqueKeys

theorem HaveUniqueKeys.append {es fs : List MappingEntry} (hes : HaveUniqueKeys es)
    (hfs : HaveUniqueKeys fs) : HaveUniqueKeys (es ++ fs) := by
  intro e he
  rcases List.mem_append.mp he with he | he
  · exact hes e he
  · exact hfs e he

theorem mem_putEntry {key : String} {v : Value} {entries : List (String × Value)}
    {e : String × Value} (h : e ∈ putEntry key v entries) : e.2 = v ∨ e ∈ entries := by
  induction entries with
  | nil =>
    rw [putEntry, List.mem_singleton] at h
    exact .inl (h ▸ rfl)
  | cons f rest ih =>
    obtain ⟨k, w⟩ := f
    rw [putEntry] at h
    split at h
    · rcases List.mem_cons.mp h with rfl | h
      · exact .inl rfl
      · exact .inr (List.mem_cons_of_mem _ h)
    · rcases List.mem_cons.mp h with rfl | h
      · exact .inr List.mem_cons_self
      · exact (ih h).imp_right (List.mem_cons_of_mem _)

/-- The object for entries repeats no key, if their values do not. -/
theorem PartialObject.uniqueKeys_of_ofEntries? {own merged : List MappingEntry} {o : PartialObject}
    (hown : HaveUniqueKeys own) (hmerged : HaveUniqueKeys merged)
    (h : ofEntries? own merged = some o) : (Value.object o.entries).UniqueKeys := by
  refine .object (distinct_of_ofEntries? h) ?_
  -- every value in it was put there with one of the entries
  refine ofEntries?_induction (motive := fun o => ∀ e ∈ o.entries, e.2.UniqueKeys) nofun ?_ h
  intro e he o o' ho hadd
  simp only [PartialObject.add?, Option.bind_eq_bind, Option.bind_eq_some_iff] at hadd
  obtain ⟨_, -, _, -, v, hv, hadd⟩ := hadd
  cases hadd
  intro f hf
  rcases mem_putEntry hf with hf | hf
  · exact hf ▸ hown.append hmerged e he v hv
  · exact ho f hf

/-! ## Values of nodes -/

/-- What stands in a scalar is no object. -/
theorem uniqueKeys_of_scalarValue? {style : ScalarStyle} {kind? : Option TagKind} {text : String}
    {v : Value} (h : scalarValue? style kind? text = some v) : v.UniqueKeys := by
  rw [scalarValue?] at h
  split at h
  · cases h
    exact .null
  · split at h
    · cases h
      rw [plainValue]
      cases booleanOf? (Text.trim text.toList) with
      | some b => exact .bool b
      | none =>
        cases integerOf? (Text.trim text.toList) with
        | some n => exact .number _
        | none =>
          cases floatOf? (Text.trim text.toList) with
          | none => exact .string _
          | some f =>
            cases f with
            | finite d => exact .number _
            | infinite negative => exact .string _
            | notANumber => exact .string _
    · obtain ⟨s, -, rfl⟩ := Option.map_eq_some_iff.mp h
      exact .string s

namespace Node

/-- Neither the value of a node nor what it contributes to a mapping that merges it repeats a key. -/
structure Sound (n : Node) : Prop where
  value : ∀ v, n.toValue? = some v → v.UniqueKeys
  contribution : ∀ es, n.contribution? = some es → HaveUniqueKeys es

theorem uniqueKeys_of_itemValues? {items : List Node} (ih : ∀ n ∈ items, n.Sound) {vs : List Value}
    (h : itemValues? items = some vs) : ∀ v ∈ vs, v.UniqueKeys := by
  induction items generalizing vs with
  | nil =>
    cases h
    exact nofun
  | cons n rest ihrest =>
    rw [List.forall_mem_cons] at ih
    simp only [itemValues?, Option.bind_eq_bind, Option.bind_eq_some_iff] at h
    obtain ⟨v, hv, vs', hvs, h⟩ := h
    cases h
    exact List.forall_mem_cons.mpr ⟨ih.1.value v hv, ihrest ih.2 hvs⟩

theorem haveUniqueKeys_contributions? {items : List Node} (ih : ∀ n ∈ items, n.Sound)
    {es : List MappingEntry} (h : contributions? items = some es) : HaveUniqueKeys es := by
  induction items generalizing es with
  | nil =>
    cases h
    exact nofun
  | cons n rest ihrest =>
    rw [List.forall_mem_cons] at ih
    simp only [contributions?, Option.bind_eq_bind, Option.bind_eq_some_iff] at h
    obtain ⟨after, hafter, first, hfirst, h⟩ := h
    cases h
    exact (ihrest ih.2 hafter).append (ih.1.contribution first hfirst)

theorem haveUniqueKeys_ownEntries {entries : List (Node × Node)} (ih : ∀ e ∈ entries, e.2.Sound) :
    HaveUniqueKeys (ownEntries entries) := by
  induction entries with
  | nil => exact nofun
  | cons e rest ihrest =>
    obtain ⟨k, n⟩ := e
    rw [List.forall_mem_cons] at ih
    rw [ownEntries]
    split
    · exact ihrest ih.2
    · exact List.forall_mem_cons.mpr ⟨ih.1.value, ihrest ih.2⟩

theorem haveUniqueKeys_mergedEntries? {entries : List (Node × Node)}
    (ih : ∀ e ∈ entries, e.2.Sound) {es : List MappingEntry}
    (h : mergedEntries? entries = some es) : HaveUniqueKeys es := by
  induction entries generalizing es with
  | nil =>
    cases h
    exact nofun
  | cons e rest ihrest =>
    obtain ⟨k, n⟩ := e
    rw [List.forall_mem_cons] at ih
    simp only [mergedEntries?, Option.bind_eq_bind, Option.bind_eq_some_iff] at h
    obtain ⟨after, hafter, h⟩ := h
    split at h
    · obtain ⟨first, hfirst, h⟩ := Option.bind_eq_some_iff.mp h
      cases h
      exact (ihrest ih.2 hafter).append (ih.1.contribution first hfirst)
    · cases h
      exact ihrest ih.2 hafter

theorem sound (n : Node) : n.Sound := by
  induction n using induct with
  | scalar style kind? text =>
    refine ⟨fun v hv => uniqueKeys_of_scalarValue? hv, fun es hes => ?_⟩
    rw [contribution?] at hes
    split at hes
    · cases hes
      exact nofun
    · cases hes
  | sequence items ih =>
    constructor
    · intro v hv
      rw [toValue?] at hv
      obtain ⟨vs, hvs, rfl⟩ := Option.map_eq_some_iff.mp hv
      exact .array (uniqueKeys_of_itemValues? ih hvs)
    · intro es hes
      exact haveUniqueKeys_contributions? ih hes
  | mapping entries ih =>
    have hown := haveUniqueKeys_ownEntries ih
    constructor
    · intro v hv
      simp only [toValue?, Option.bind_eq_bind, Option.bind_eq_some_iff] at hv
      obtain ⟨merged, hmerged, o, ho, hv⟩ := hv
      cases hv
      exact PartialObject.uniqueKeys_of_ofEntries? hown (haveUniqueKeys_mergedEntries? ih hmerged) ho
    · intro es hes
      simp only [contribution?, Option.bind_eq_bind, Option.bind_eq_some_iff] at hes
      obtain ⟨merged, hmerged, hes⟩ := hes
      cases hes
      exact hown.append (haveUniqueKeys_mergedEntries? ih hmerged)

end Node

end Yaml

/-! ## Documents -/

/-- A document that is read from YAML repeats no key. -/
theorem DocumentReader.keepsKeysUnique_yaml : DocumentReader.yaml.KeepsKeysUnique := by
  intro text v h
  rw [yaml] at h
  cases hv : Value.ofYaml? text with
  | none =>
    rw [hv] at h
    cases h
  | some w =>
    rw [hv] at h
    cases h
    obtain ⟨n, -, hn⟩ := Option.bind_eq_some_iff.mp hv
    exact n.sound.value v hn

end ForeignKey
