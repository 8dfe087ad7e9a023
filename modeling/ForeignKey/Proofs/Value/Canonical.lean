import Mathlib.Data.Finset.Dedup
import Mathlib.Logic.Relation
import ForeignKey.Proofs.Value.Equality

/-!
# What a value says

The canonical tree of a value forgets how the value is written: a scalar is its key, an array the list of
its elements, and an object the finite map from its keys to what stands under them. On trees that repeat
no key, value equality is equality of canonical trees, and every other law of it follows from that.
-/

namespace ForeignKey

/-- A tree of scalar keys, lists and finite maps. -/
inductive Canonical where
  | scalar (key : ScalarKey)
  | array (items : List Canonical)
  | object (keys : Finset String) (value : {key // key ∈ keys} → Canonical)

theorem Canonical.object_eq_object_iff {keys keys' : Finset String}
    {value : {key // key ∈ keys} → Canonical} {value' : {key // key ∈ keys'} → Canonical} :
    object keys value = object keys' value' ↔
      keys = keys' ∧ ∀ key h h', value ⟨key, h⟩ = value' ⟨key, h'⟩ := by
  constructor
  · intro h
    cases h
    exact ⟨rfl, fun _ _ _ => rfl⟩
  · rintro ⟨rfl, hvalue⟩
    have heq : value = value' := funext fun key => hvalue key.1 key.2 key.2
    rw [heq]

namespace Value

mutual

/-- The canonical tree of a value. -/
def canonical : Value → Canonical
  | .null => .scalar .null
  | .bool b => .scalar (.bool b)
  | .number n => .scalar (.number n.key)
  | .string s => .scalar (.string s)
  | .array items => .array (canonicalItems items)
  | .object entries =>
    .object (entries.map Prod.fst).toFinset
      fun key => canonicalUnder entries key.1 (List.mem_toFinset.mp key.2)
termination_by structural v => v

/-- The canonical trees of the elements of an array. -/
def canonicalItems : List Value → List Canonical
  | [] => []
  | v :: rest => canonical v :: canonicalItems rest
termination_by structural items => items

/-- The canonical tree of the first value under a key. -/
def canonicalUnder : (entries : List (String × Value)) → (key : String) →
    key ∈ entries.map Prod.fst → Canonical
  | [], _, h => absurd h List.not_mem_nil
  | entry :: rest, key, h =>
    if hkey : entry.1 = key then canonicalOfEntry entry
    else canonicalUnder rest key ((List.mem_cons.mp h).resolve_left (Ne.symm hkey))
termination_by structural entries => entries

/-- The canonical tree of the value of an entry. -/
def canonicalOfEntry : String × Value → Canonical
  | (_, v) => canonical v
termination_by structural entry => entry

end

theorem canonicalItems_eq_map (items : List Value) : canonicalItems items = items.map canonical := by
  induction items with
  | nil => rfl
  | cons v rest ih => rw [canonicalItems, ih, List.map_cons]

/-- Under a key stands the canonical tree of what the key is looked up as. -/
theorem canonicalUnder_eq {entries : List (String × Value)} {key : String} {v : Value}
    (h : key ∈ entries.map Prod.fst) (hv : lookup key entries = some v) :
    canonicalUnder entries key h = v.canonical := by
  induction entries with
  | nil => cases hv
  | cons entry rest ih =>
    obtain ⟨k, w⟩ := entry
    rw [lookup_cons] at hv
    rw [canonicalUnder]
    by_cases hk : k = key
    · rw [if_pos hk] at hv
      rw [dif_pos hk, canonicalOfEntry, Option.some.inj hv]
    · rw [if_neg hk] at hv
      rw [dif_neg hk]
      exact ih _ hv

/-- The maps of two objects are one map if the objects have the same keys with canonically equal values
under them. -/
theorem canonical_object_eq_iff {as bs : List (String × Value)} :
    (object as).canonical = (object bs).canonical ↔
      (∀ key, key ∈ as.map Prod.fst ↔ key ∈ bs.map Prod.fst) ∧
        ∀ key v w, lookup key as = some v → lookup key bs = some w → v.canonical = w.canonical := by
  rw [canonical, canonical, Canonical.object_eq_object_iff, Finset.ext_iff]
  simp only [List.mem_toFinset]
  refine and_congr_right fun _ => ?_
  constructor
  · intro h key v w hv hw
    have hkeya : key ∈ as.map Prod.fst := List.mem_map_of_mem (mem_of_lookup hv)
    have hkeyb : key ∈ bs.map Prod.fst := List.mem_map_of_mem (mem_of_lookup hw)
    rw [← canonicalUnder_eq hkeya hv, ← canonicalUnder_eq hkeyb hw]
    exact h key hkeya hkeyb
  · intro h key hkeya hkeyb
    obtain ⟨v, hv⟩ := exists_lookup_of_mem hkeya
    obtain ⟨w, hw⟩ := exists_lookup_of_mem hkeyb
    rw [canonicalUnder_eq hkeya hv, canonicalUnder_eq hkeyb hw]
    exact h key v w hv hw

/-! ## Equality is equality of canonical trees -/

theorem equal_iff_canonical_eq {a b : Value} (ha : a.UniqueKeys) (hb : b.UniqueKeys) :
    a.equal b = true ↔ a.canonical = b.canonical := by
  induction a generalizing b with
  | null | bool | number | string =>
    cases b <;> simp [equal, canonical]
  | array as ih =>
    cases ha with
    | array has =>
      cases hb with
      | @array bs hbs =>
        rw [equal_array_iff, canonical, canonical, Canonical.array.injEq, canonicalItems_eq_map,
          canonicalItems_eq_map, ← List.forall₂_eq_eq_eq, List.forall₂_map_left_iff,
          List.forall₂_map_right_iff, List.forall₂_iff_zip, List.forall₂_iff_zip]
        refine and_congr_right fun _ => ?_
        constructor
        · intro h v w hvw
          obtain ⟨hv, hw⟩ := List.of_mem_zip hvw
          exact (ih v hv (has v hv) (hbs w hw)).mp (h hvw)
        · intro h v w hvw
          obtain ⟨hv, hw⟩ := List.of_mem_zip hvw
          exact (ih v hv (has v hv) (hbs w hw)).mpr (h hvw)
      | _ => simp [equal, canonical]
  | object as ih =>
    cases ha with
    | object hnd has =>
      cases hb with
      | @object bs hndb hbs =>
        rw [canonical_object_eq_iff]
        constructor
        · intro h
          refine ⟨fun key => (keys_perm_of_equal hnd h).mem_iff, fun key v w hv hw => ?_⟩
          have hmem := mem_of_lookup hv
          obtain ⟨w', hw', heq⟩ := (equal_object_iff.mp h).2 _ hmem
          obtain rfl : w = w' := Option.some.inj (hw.symm.trans hw')
          exact (ih _ hmem (has _ hmem) (hbs _ (mem_of_lookup hw))).mp heq
        · rintro ⟨hkeys, hvalues⟩
          have hperm : (as.map Prod.fst).Perm (bs.map Prod.fst) :=
            (List.perm_ext_iff_of_nodup hnd hndb).mpr hkeys
          refine equal_object_iff.mpr ⟨by simpa using hperm.length_eq, fun e he => ?_⟩
          obtain ⟨w, hw⟩ := exists_lookup_of_mem ((hkeys e.1).mp (List.mem_map_of_mem he))
          have hcanonical := hvalues e.1 e.2 w (lookup_of_mem hnd he) hw
          exact ⟨w, hw, (ih e he (has e he) (hbs _ (mem_of_lookup hw))).mpr hcanonical⟩
      | _ => simp [equal, canonical]

/-! ## Kinds -/

/-- The kinds of values. -/
inductive Kind where
  | null
  | bool
  | number
  | string
  | array
  | object
  deriving DecidableEq

/-- The kind of a value. An integer and a double are both numbers. -/
def kind : Value → Kind
  | .null => .null
  | .bool _ => .bool
  | .number _ => .number
  | .string _ => .string
  | .array _ => .array
  | .object _ => .object

theorem kind_eq_of_equal {a b : Value} (h : a.equal b = true) : a.kind = b.kind := by
  cases a <;> cases b <;> first | rfl | simp [equal] at h

/-! ## The order of entries -/

/-- The entries of one object of the tree, at any depth, stand in another order. -/
inductive Reordered : Value → Value → Prop where
  | here {as bs : List (String × Value)} (h : as.Perm bs) : Reordered (.object as) (.object bs)
  | item (before after : List Value) {v w : Value} (h : Reordered v w) :
    Reordered (.array (before ++ v :: after)) (.array (before ++ w :: after))
  | entry (before after : List (String × Value)) (key : String) {v w : Value} (h : Reordered v w) :
    Reordered (.object (before ++ (key, v) :: after)) (.object (before ++ (key, w) :: after))

theorem Reordered.uniqueKeys {a b : Value} (h : a.Reordered b) (ha : a.UniqueKeys) :
    b.UniqueKeys := by
  induction h with
  | here hperm =>
    cases ha with
    | object hnd has =>
      exact .object ((hperm.map Prod.fst).nodup_iff.mp hnd) fun e he => has e (hperm.mem_iff.mpr he)
  | item before after _ ih =>
    cases ha with
    | array has =>
      rw [List.forall_mem_append, List.forall_mem_cons] at has
      refine .array ?_
      rw [List.forall_mem_append, List.forall_mem_cons]
      exact ⟨has.1, ih has.2.1, has.2.2⟩
  | entry before after key _ ih =>
    cases ha with
    | object hnd has =>
      rw [List.forall_mem_append, List.forall_mem_cons] at has
      refine .object (by simpa using hnd) ?_
      rw [List.forall_mem_append, List.forall_mem_cons]
      exact ⟨has.1, ih has.2.1, has.2.2⟩

/-- Objects are equal if every entry of the first has an equal one in the second, which is as long. -/
theorem equal_object_of_mem {as bs : List (String × Value)} (hnd : (bs.map Prod.fst).Nodup)
    (hlen : as.length = bs.length) (h : ∀ e ∈ as, ∃ w, (e.1, w) ∈ bs ∧ e.2.equal w = true) :
    (object as).equal (object bs) = true := by
  refine equal_object_iff.mpr ⟨hlen, fun e he => ?_⟩
  obtain ⟨w, hw, heq⟩ := h e he
  exact ⟨w, lookup_of_mem hnd hw, heq⟩

theorem Reordered.equal {a b : Value} (h : a.Reordered b) (ha : a.UniqueKeys) :
    a.equal b = true := by
  induction h with
  | here hperm =>
    cases (Reordered.here hperm).uniqueKeys ha with
    | object hndb hbs =>
      refine equal_object_of_mem hndb hperm.length_eq fun e he => ?_
      have hmem := hperm.mem_iff.mp he
      exact ⟨e.2, hmem, equal_refl (hbs e hmem)⟩
  | item before after _ ih =>
    cases ha with
    | array has =>
      rw [List.forall_mem_append, List.forall_mem_cons] at has
      refine equal_array_iff.mpr (List.rel_append ?_ (.cons (ih has.2.1) ?_))
      · exact List.forall₂_same.mpr fun v hv => equal_refl (has.1 v hv)
      · exact List.forall₂_same.mpr fun v hv => equal_refl (has.2.2 v hv)
  | entry before after key hvw ih =>
    cases (Reordered.entry before after key hvw).uniqueKeys ha with
    | object hndb _ =>
      cases ha with
      | object _ has =>
        refine equal_object_of_mem hndb (by simp) fun e he => ?_
        rcases List.mem_append.mp he with hbefore | hrest
        · exact ⟨e.2, List.mem_append_left _ hbefore, equal_refl (has e he)⟩
        · rcases List.mem_cons.mp hrest with rfl | hafter
          · exact ⟨_, by simp, ih (has _ he)⟩
          · exact ⟨e.2, by simp [hafter], equal_refl (has e he)⟩

/-- However often entries are reordered, the canonical tree stays. -/
theorem canonical_eq_of_reordered {a b : Value} (h : Relation.ReflTransGen Reordered a b)
    (ha : a.UniqueKeys) : b.UniqueKeys ∧ a.canonical = b.canonical := by
  induction h with
  | refl => exact ⟨ha, rfl⟩
  | tail _ hstep ih =>
    obtain ⟨hkeys, hcanonical⟩ := ih
    have hkeys' := hstep.uniqueKeys hkeys
    exact ⟨hkeys', hcanonical.trans ((equal_iff_canonical_eq hkeys hkeys').mp (hstep.equal hkeys))⟩

/-! ## All laws together -/

/-- Value equality compares canonical trees. So it is reflexive, symmetric and transitive, it does not
see in which order entries stand at any depth, and values of different kinds are never equal. -/
theorem equal_compares_canonical_trees {a b : Value} (ha : a.UniqueKeys) (hb : b.UniqueKeys) :
    (a.equal b = true ↔ a.canonical = b.canonical) ∧
    a.equal a = true ∧
    a.equal b = b.equal a ∧
    (∀ c, a.equal b = true → b.equal c = true → a.equal c = true) ∧
    (∀ a', Relation.ReflTransGen Reordered a a' →
      a'.equal b = a.equal b ∧ b.equal a' = b.equal a) ∧
    (a.kind ≠ b.kind → a.equal b = false) := by
  refine ⟨equal_iff_canonical_eq ha hb, equal_refl ha, ?_, fun c => equal_trans, ?_, ?_⟩
  · rw [Bool.eq_iff_iff, equal_iff_canonical_eq ha hb, equal_iff_canonical_eq hb ha, eq_comm]
  · intro a' h
    obtain ⟨ha', hcanonical⟩ := canonical_eq_of_reordered h ha
    constructor
    · rw [Bool.eq_iff_iff, equal_iff_canonical_eq ha' hb, equal_iff_canonical_eq ha hb, hcanonical]
    · rw [Bool.eq_iff_iff, equal_iff_canonical_eq hb ha', equal_iff_canonical_eq hb ha, hcanonical]
  · intro hkind
    rw [Bool.eq_false_iff]
    exact fun h => hkind (kind_eq_of_equal h)

/-- `{"a": 2, "b": [{"c": null, "d": "x"}]}` equals what it becomes when `2` is written `2.0`, and stays
equal when the entries of the inner object and then those of the outer one change places. -/
theorem canonical_tree_of_nested_object :
    let two : Value := .number (.double ⟨false, ⟨1024, by decide⟩, ⟨0, by decide⟩⟩)
    let inner : Value := .object [("c", .null), ("d", .string "x")]
    let inner' : Value := .object [("d", .string "x"), ("c", .null)]
    let a : Value := .object [("a", .ofNat 2), ("b", .array [inner])]
    let b : Value := .object [("a", two), ("b", .array [inner])]
    let a' : Value := .object [("b", .array [inner']), ("a", .ofNat 2)]
    a.UniqueKeys ∧ b.UniqueKeys ∧ a.canonical = b.canonical ∧ a'.equal b = true ∧
      b.equal a' = true := by
  intro two inner inner' a b a'
  have ha : a.UniqueKeys := by decide
  have hb : b.UniqueKeys := by decide
  obtain ⟨hcanonical, -, hsymm, -, hreordered, -⟩ := equal_compares_canonical_trees ha hb
  have hab : a.equal b = true := by decide
  have hinner : inner.Reordered inner' := .here (.swap _ _ _)
  have hsteps : Relation.ReflTransGen Reordered a a' :=
    .tail (.single (.entry [("a", .ofNat 2)] [] "b" (.item [] [] hinner))) (.here (.swap _ _ _))
  obtain ⟨hleft, hright⟩ := hreordered a' hsteps
  exact ⟨ha, hb, hcanonical.mp hab, hleft.trans hab, hright.trans (hsymm.symm.trans hab)⟩

end Value

end ForeignKey
