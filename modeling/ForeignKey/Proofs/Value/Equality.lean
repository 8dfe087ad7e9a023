import Mathlib.Data.List.Forall2
import Mathlib.Data.List.Perm.Subperm
import ForeignKey.Value.Equality

/-!
# Value equality as a relation

`Value.equal` is a test that runs. Here it is read as a relation: element by element on arrays, key by
key on objects, by the key on scalars. It is transitive on all trees. It is reflexive on the trees that
name no key twice in an object, and symmetric as soon as one side is such a tree: the test counts the
entries and looks in one direction only, so a repeated key could stand for a missing one.
-/

namespace ForeignKey

namespace Value

/-! ## Induction -/

/-- Induction over a tree, with the hypothesis for all elements of an array and for the values of all
entries of an object. -/
@[induction_eliminator]
theorem induct {motive : Value → Prop} (null : motive .null) (bool : ∀ b, motive (.bool b))
    (number : ∀ n, motive (.number n)) (string : ∀ s, motive (.string s))
    (array : ∀ items, (∀ v ∈ items, motive v) → motive (.array items))
    (object : ∀ entries, (∀ e ∈ entries, motive e.2) → motive (.object entries)) (v : Value) :
    motive v := by
  refine @Value.rec motive (fun items => ∀ v ∈ items, motive v)
    (fun entries => ∀ e ∈ entries, motive e.2) (fun e => motive e.2) null bool number string
    array object ?_ ?_ ?_ ?_ (fun _ _ h => h) v
  · simp
  · intro head tail hhead htail v hv
    rcases List.mem_cons.mp hv with rfl | hv
    · exact hhead
    · exact htail v hv
  · simp
  · intro head tail hhead htail e he
    rcases List.mem_cons.mp he with rfl | he
    · exact hhead
    · exact htail e he

/-! ## Trees without repeated keys -/

/-- No object of the tree, at any depth, names a key twice. -/
inductive UniqueKeys : Value → Prop where
  | null : UniqueKeys .null
  | bool (b : Bool) : UniqueKeys (.bool b)
  | number (n : Number) : UniqueKeys (.number n)
  | string (s : String) : UniqueKeys (.string s)
  | array {items : List Value} (h : ∀ v ∈ items, UniqueKeys v) : UniqueKeys (.array items)
  | object {entries : List (String × Value)} (nodup : (entries.map Prod.fst).Nodup)
      (h : ∀ e ∈ entries, UniqueKeys e.2) : UniqueKeys (.object entries)

mutual

/-- The test for repeated keys. -/
def repeatsNoKey : Value → Bool
  | .array items => itemsRepeatNoKey items
  | .object entries => decide (entries.map Prod.fst).Nodup && entriesRepeatNoKey entries
  | _ => true
termination_by structural v => v

/-- The test for the elements of an array. -/
def itemsRepeatNoKey : List Value → Bool
  | [] => true
  | v :: rest => repeatsNoKey v && itemsRepeatNoKey rest
termination_by structural items => items

/-- The test for the entries of an object. -/
def entriesRepeatNoKey : List (String × Value) → Bool
  | [] => true
  | entry :: rest => entryRepeatsNoKey entry && entriesRepeatNoKey rest
termination_by structural entries => entries

/-- The test for the value of an entry. -/
def entryRepeatsNoKey : String × Value → Bool
  | (_, v) => repeatsNoKey v
termination_by structural entry => entry

end

theorem itemsRepeatNoKey_iff {items : List Value} :
    itemsRepeatNoKey items = true ↔ ∀ v ∈ items, v.repeatsNoKey = true := by
  induction items with
  | nil => simp [itemsRepeatNoKey]
  | cons v rest ih => rw [itemsRepeatNoKey, Bool.and_eq_true, ih, List.forall_mem_cons]

theorem entriesRepeatNoKey_iff {entries : List (String × Value)} :
    entriesRepeatNoKey entries = true ↔ ∀ e ∈ entries, e.2.repeatsNoKey = true := by
  induction entries with
  | nil => simp [entriesRepeatNoKey]
  | cons e rest ih =>
    rw [entriesRepeatNoKey, Bool.and_eq_true, ih, List.forall_mem_cons, entryRepeatsNoKey]

theorem repeatsNoKey_iff {v : Value} : v.repeatsNoKey = true ↔ v.UniqueKeys := by
  induction v with
  | null => exact ⟨fun _ => .null, fun _ => rfl⟩
  | bool b => exact ⟨fun _ => .bool b, fun _ => rfl⟩
  | number n => exact ⟨fun _ => .number n, fun _ => rfl⟩
  | string s => exact ⟨fun _ => .string s, fun _ => rfl⟩
  | array items ih =>
    rw [repeatsNoKey, itemsRepeatNoKey_iff]
    constructor
    · intro h
      exact .array fun v hv => (ih v hv).mp (h v hv)
    · intro hkeys
      cases hkeys with
      | array h => exact fun v hv => (ih v hv).mpr (h v hv)
  | object entries ih =>
    rw [repeatsNoKey, Bool.and_eq_true, decide_eq_true_eq, entriesRepeatNoKey_iff]
    constructor
    · rintro ⟨hnd, h⟩
      exact .object hnd fun e he => (ih e he).mp (h e he)
    · intro hkeys
      cases hkeys with
      | object hnd h => exact ⟨hnd, fun e he => (ih e he).mpr (h e he)⟩

instance (v : Value) : Decidable v.UniqueKeys := decidable_of_iff _ repeatsNoKey_iff

/-- A key that some entry has can be looked up. -/
theorem exists_lookup_of_mem {key : String} {entries : List (String × Value)}
    (h : key ∈ entries.map Prod.fst) : ∃ v, lookup key entries = some v := by
  induction entries with
  | nil => simp at h
  | cons e rest ih =>
    obtain ⟨k, w⟩ := e
    rw [lookup_cons]
    by_cases hk : k = key
    · exact ⟨w, by rw [if_pos hk]⟩
    · rw [if_neg hk]
      refine ih ?_
      rcases List.mem_cons.mp h with he | he
      · exact absurd he.symm hk
      · exact he

theorem lookup_eq_none_iff {key : String} {entries : List (String × Value)} :
    lookup key entries = none ↔ key ∉ entries.map Prod.fst := by
  constructor
  · intro h hmem
    obtain ⟨v, hv⟩ := exists_lookup_of_mem hmem
    rw [h] at hv
    cases hv
  · intro h
    cases hv : lookup key entries with
    | none => rfl
    | some v => exact absurd (List.mem_map_of_mem (mem_of_lookup hv)) h

/-- Without repeated keys, an entry is what its key is looked up as. -/
theorem lookup_of_mem {key : String} {v : Value} {entries : List (String × Value)}
    (hnd : (entries.map Prod.fst).Nodup) (h : (key, v) ∈ entries) :
    lookup key entries = some v := by
  induction entries with
  | nil => simp at h
  | cons e rest ih =>
    obtain ⟨k, w⟩ := e
    rw [List.map_cons, List.nodup_cons] at hnd
    rw [lookup_cons]
    rcases List.mem_cons.mp h with he | he
    · cases he
      rw [if_pos rfl]
    · have hk : k ≠ key := by
        intro hk
        subst hk
        exact hnd.1 (List.mem_map.mpr ⟨_, he, rfl⟩)
      rw [if_neg hk]
      exact ih hnd.2 he

/-! ## Scalars and composites -/

/-- Whether a value is an array or an object. -/
def isComposite : Value → Bool
  | .array _ => true
  | .object _ => true
  | _ => false

theorem scalarKey?_eq_none_iff {v : Value} : v.scalarKey? = none ↔ v.isComposite = true := by
  cases v <;> simp [scalarKey?, isComposite]

/-- Equal values have the same key, or both have none. -/
theorem scalarKey?_eq_of_equal {a b : Value} (h : a.equal b = true) :
    a.scalarKey? = b.scalarKey? := by
  cases a <;> cases b <;> simp_all [equal, scalarKey?]

theorem equal_of_scalarKey? {a b : Value} {key : ScalarKey} (ha : a.scalarKey? = some key)
    (hb : b.scalarKey? = some key) : a.equal b = true :=
  (equal_iff_scalarKey ha hb).mpr rfl

/-- What equals a scalar is what has its key. -/
theorem equal_iff_of_scalarKey? {a b : Value} {key : ScalarKey} (hb : b.scalarKey? = some key) :
    a.equal b = true ↔ a.scalarKey? = some key := by
  constructor
  · intro h
    rw [scalarKey?_eq_of_equal h, hb]
  · intro ha
    exact equal_of_scalarKey? ha hb

/-! ## What the test says -/

theorem equalItems_iff {as bs : List Value} :
    equalItems as bs = true ↔ List.Forall₂ (fun a b => a.equal b = true) as bs := by
  induction as generalizing bs with
  | nil => cases bs <;> simp [equalItems]
  | cons a as ih => cases bs <;> simp [equalItems, ih]

theorem equal_array_iff {as bs : List Value} :
    (Value.array as).equal (.array bs) = true ↔
      List.Forall₂ (fun a b => a.equal b = true) as bs := by
  rw [equal, equalItems_iff]

theorem entryWithin_iff {e : String × Value} {bs : List (String × Value)} :
    entryWithin e bs = true ↔ ∃ w, lookup e.1 bs = some w ∧ e.2.equal w = true := by
  rw [entryWithin]
  cases lookup e.1 bs <;> simp

theorem entriesWithin_iff {as bs : List (String × Value)} :
    entriesWithin as bs = true ↔
      ∀ e ∈ as, ∃ w, lookup e.1 bs = some w ∧ e.2.equal w = true := by
  induction as with
  | nil => simp [entriesWithin]
  | cons e as ih => rw [entriesWithin, Bool.and_eq_true, ih, entryWithin_iff, List.forall_mem_cons]

theorem equal_object_iff {as bs : List (String × Value)} :
    (Value.object as).equal (.object bs) = true ↔
      as.length = bs.length ∧ ∀ e ∈ as, ∃ w, lookup e.1 bs = some w ∧ e.2.equal w = true := by
  rw [equal, Bool.and_eq_true, beq_iff_eq, entriesWithin_iff]

/-- The entries of the first of two equal objects have the keys of the second. -/
theorem keys_subset_of_equal {as bs : List (String × Value)}
    (h : (Value.object as).equal (.object bs) = true) :
    as.map Prod.fst ⊆ bs.map Prod.fst := by
  intro key hkey
  obtain ⟨e, he, rfl⟩ := List.mem_map.mp hkey
  obtain ⟨w, hw, -⟩ := (equal_object_iff.mp h).2 e he
  exact List.mem_map.mpr ⟨_, mem_of_lookup hw, rfl⟩

/-- Counting: if the first of two equal objects repeats no key, the two have the same keys. -/
theorem keys_perm_of_equal {as bs : List (String × Value)} (hnd : (as.map Prod.fst).Nodup)
    (h : (Value.object as).equal (.object bs) = true) :
    (as.map Prod.fst).Perm (bs.map Prod.fst) := by
  have hlen : (bs.map Prod.fst).length ≤ (as.map Prod.fst).length := by
    simp [(equal_object_iff.mp h).1]
  exact (hnd.subperm (keys_subset_of_equal h)).perm_of_length_le hlen

/-! ## Reflexivity, symmetry and transitivity -/

theorem equal_refl {v : Value} (hv : v.UniqueKeys) : v.equal v = true := by
  induction v with
  | null | bool | number | string => exact equal_of_scalarKey? rfl rfl
  | array items ih =>
    cases hv with
    | array hitems =>
      exact equal_array_iff.mpr (List.forall₂_same.mpr fun v hv => ih v hv (hitems v hv))
  | object entries ih =>
    cases hv with
    | object hnd hvalues =>
      exact equal_object_iff.mpr
        ⟨rfl, fun e he => ⟨e.2, lookup_of_mem hnd he, ih e he (hvalues e he)⟩⟩

/-- Equality can be turned around if the first value repeats no key. -/
theorem equal_symm {a b : Value} (ha : a.UniqueKeys) (h : a.equal b = true) :
    b.equal a = true := by
  induction a generalizing b with
  | null | bool | number | string =>
    exact equal_of_scalarKey? (scalarKey?_eq_of_equal h).symm rfl
  | array as ih =>
    cases ha with
    | array has =>
      cases b with
      | array bs =>
        rw [equal_array_iff] at h ⊢
        induction h with
        | nil => exact .nil
        | cons hab _ ihrest =>
          rw [List.forall_mem_cons] at ih has
          exact .cons (ih.1 has.1 hab) (ihrest ih.2 has.2)
      | _ => simp [equal] at h
  | object as ih =>
    cases ha with
    | object hnd has =>
      cases b with
      | object bs =>
        have hkeys := keys_perm_of_equal hnd h
        obtain ⟨hlen, hwithin⟩ := equal_object_iff.mp h
        refine equal_object_iff.mpr ⟨hlen.symm, fun e he => ?_⟩
        -- the key of `e` is also in `as`, and what stands there under it is equal to `e`
        obtain ⟨v, hv⟩ := exists_lookup_of_mem (hkeys.symm.subset (List.mem_map_of_mem he))
        have hmem := mem_of_lookup hv
        obtain ⟨w, hw, heq⟩ := hwithin _ hmem
        rw [lookup_of_mem (hkeys.nodup_iff.mp hnd) he] at hw
        cases hw
        exact ⟨v, hv, ih _ hmem (has _ hmem) heq⟩
      | _ => simp [equal] at h

/-- Equality can be chained, whatever keys are repeated. -/
theorem equal_trans {a b c : Value} (hab : a.equal b = true) (hbc : b.equal c = true) :
    a.equal c = true := by
  induction a generalizing b c with
  | null | bool | number | string =>
    have hb := (scalarKey?_eq_of_equal hab).symm
    exact equal_of_scalarKey? rfl ((scalarKey?_eq_of_equal hbc).symm.trans hb)
  | array as ih =>
    cases b with
    | array bs =>
      cases c with
      | array cs =>
        rw [equal_array_iff] at hab hbc ⊢
        induction hab generalizing cs with
        | nil => exact hbc
        | cons h _ ihrest =>
          cases hbc with
          | cons h' hrest =>
            rw [List.forall_mem_cons] at ih
            exact .cons (ih.1 h h') (ihrest ih.2 _ hrest)
      | _ => simp [equal] at hbc
    | _ => simp [equal] at hab
  | object as ih =>
    cases b with
    | object bs =>
      cases c with
      | object cs =>
        obtain ⟨hlen, hwithin⟩ := equal_object_iff.mp hab
        obtain ⟨hlen', hwithin'⟩ := equal_object_iff.mp hbc
        refine equal_object_iff.mpr ⟨hlen.trans hlen', fun e he => ?_⟩
        obtain ⟨v, hv, hev⟩ := hwithin e he
        obtain ⟨w, hw, hvw⟩ := hwithin' _ (mem_of_lookup hv)
        exact ⟨w, hw, ih e he hev hvw⟩
      | _ => simp [equal] at hbc
    | _ => simp [equal] at hab

end Value

end ForeignKey
