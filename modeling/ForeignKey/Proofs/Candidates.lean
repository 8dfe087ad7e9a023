import ForeignKey.Candidates
import ForeignKey.Proofs.Clients
import ForeignKey.Proofs.Value.Equality

/-!
# Candidates stand for the values that were pushed

The hash set of keys and the positions of the composites are an index over the pushed values. What the
index says of them is an invariant (`Represents`) that every push keeps. From it membership is one scan
over all values under `Value.equal`, and it cannot tell equal values apart.
-/

namespace ForeignKey

namespace Candidates

/-- `c` is an index over the values `vs`. -/
structure Represents (c : Candidates) (vs : List Value) : Prop where
  values : c.toList = vs
  /-- The keys are those of the scalars. -/
  scalars : ∀ key, key ∈ c.scalars ↔ ∃ v ∈ vs, v.scalarKey? = some key
  sorted : c.composites.toList.Pairwise (· < ·)
  /-- The positions are those of the arrays and objects. -/
  composites : ∀ i, i ∈ c.composites ↔ ∃ v, vs[i]? = some v ∧ v.isComposite = true

theorem represents_empty : empty.Represents [] := by
  refine ⟨rfl, fun key => ?_, .nil, fun i => ?_⟩
  · simp [empty]
  · simp [empty]

variable {c : Candidates} {vs : List Value}

/-- A position that is kept is one of a value that is there. -/
theorem Represents.lt_length (h : c.Represents vs) {i : Nat} (hi : i ∈ c.composites) :
    i < vs.length := by
  obtain ⟨v, hv, -⟩ := (h.composites i).mp hi
  exact (List.getElem?_eq_some_iff.mp hv).1

theorem Represents.size_eq (h : c.Represents vs) : c.values.size = vs.length := by
  rw [← h.values]
  simp [toList]

theorem Represents.getElem? (h : c.Represents vs) (i : Nat) : c.values[i]? = vs[i]? := by
  rw [← h.values]
  simp [toList]

/-! ## One push -/

/-- Where a value stands after one more was put at the end. -/
theorem getElem?_concat_eq_some_iff {v w : Value} {i : Nat} :
    (vs ++ [v])[i]? = some w ↔ vs[i]? = some w ∨ (i = vs.length ∧ v = w) := by
  rcases Nat.lt_trichotomy i vs.length with hlt | rfl | hgt
  · rw [List.getElem?_append_left hlt]
    simp [Nat.ne_of_lt hlt]
  · simp
  · have hpast : (vs ++ [v]).length ≤ i := by
      rw [List.length_append, List.length_singleton]
      exact hgt
    rw [List.getElem?_eq_none hpast, List.getElem?_eq_none (Nat.le_of_lt hgt)]
    simp [Nat.ne_of_gt hgt]

theorem exists_composite_concat_iff {v : Value} {i : Nat} :
    (∃ w, (vs ++ [v])[i]? = some w ∧ w.isComposite = true) ↔
      (∃ w, vs[i]? = some w ∧ w.isComposite = true) ∨
        (i = vs.length ∧ v.isComposite = true) := by
  simp only [getElem?_concat_eq_some_iff, or_and_right, exists_or, and_assoc]
  simp

theorem Represents.push_scalar (h : c.Represents vs) {v : Value} {key : ScalarKey}
    (hv : v.scalarKey? = some key) : (c.push v).Represents (vs ++ [v]) := by
  have hpush : c.push v =
      { c with values := c.values.push v, scalars := c.scalars.insert key } := by
    unfold push
    rw [hv]
  have hnot : ¬v.isComposite = true := by
    rw [← Value.scalarKey?_eq_none_iff, hv]
    simp
  refine ⟨by rw [toList_push, h.values], fun key' => ?_, ?_, fun i => ?_⟩
  · rw [hpush, Std.HashSet.mem_insert, beq_iff_eq, h.scalars]
    simp [or_and_right, exists_or, hv, or_comm]
  · rw [hpush]
    exact h.sorted
  · rw [hpush, exists_composite_concat_iff, ← h.composites]
    simp [hnot]

theorem Represents.push_composite (h : c.Represents vs) {v : Value}
    (hv : v.scalarKey? = none) : (c.push v).Represents (vs ++ [v]) := by
  have hpush : c.push v =
      { c with values := c.values.push v, composites := c.composites.push c.values.size } := by
    unfold push
    rw [hv]
  have hcomp : v.isComposite = true := Value.scalarKey?_eq_none_iff.mp hv
  refine ⟨by rw [toList_push, h.values], fun key => ?_, ?_, fun i => ?_⟩
  · rw [hpush, h.scalars]
    simp [or_and_right, exists_or, hv]
  · rw [hpush, Array.toList_push, List.pairwise_append]
    refine ⟨h.sorted, List.pairwise_singleton _ _, fun i hi j hj => ?_⟩
    -- the new position is the number of values so far, and the old ones lie below it
    rw [List.mem_singleton.mp hj, h.size_eq]
    exact h.lt_length (Array.mem_toList_iff.mp hi)
  · rw [hpush, exists_composite_concat_iff, Array.mem_push, h.composites, h.size_eq]
    simp [hcomp]

theorem Represents.push (h : c.Represents vs) (v : Value) :
    (c.push v).Represents (vs ++ [v]) := by
  cases hv : v.scalarKey? with
  | some key => exact h.push_scalar hv
  | none => exact h.push_composite hv

/-- Candidates that were pushed one by one are an index over them. -/
theorem represents_ofList (vs : List Value) : (ofList vs).Represents vs :=
  holds_foldl push Represents (fun _ _ v h => h.push v) represents_empty vs

/-! ## Membership -/

theorem Represents.contains_scalar_iff (h : c.Represents vs) {x : Value} {key : ScalarKey}
    (hx : x.scalarKey? = some key) : c.contains x = true ↔ ∃ v ∈ vs, v.equal x = true := by
  unfold contains
  rw [hx]
  show c.scalars.contains key = true ↔ _
  rw [Std.HashSet.contains_iff_mem, h.scalars]
  simp only [Value.equal_iff_of_scalarKey? hx]

theorem Represents.contains_composite_iff (h : c.Represents vs) {x : Value}
    (hx : x.scalarKey? = none) : c.contains x = true ↔ ∃ v ∈ vs, v.equal x = true := by
  unfold contains
  rw [hx]
  simp only [Array.any_eq_true', h.getElem?]
  constructor
  · rintro ⟨i, -, hi⟩
    cases hv : vs[i]? with
    | none => simp [hv] at hi
    | some v => exact ⟨v, List.mem_of_getElem? hv, by simpa [hv] using hi⟩
  · rintro ⟨v, hv, heq⟩
    obtain ⟨i, hi⟩ := List.getElem?_of_mem hv
    -- what equals a composite is one, so its position is kept
    have hcomp : v.isComposite = true := by
      rw [← Value.scalarKey?_eq_none_iff, Value.scalarKey?_eq_of_equal heq, hx]
    exact ⟨i, (h.composites i).mpr ⟨v, hi, hcomp⟩, by simpa [hi] using heq⟩

/-- Membership is one scan over everything that was pushed. -/
theorem Represents.contains_iff (h : c.Represents vs) {x : Value} :
    c.contains x = true ↔ ∃ v ∈ vs, v.equal x = true := by
  cases hx : x.scalarKey? with
  | some key => exact h.contains_scalar_iff hx
  | none => exact h.contains_composite_iff hx

/-- Membership cannot tell equal values apart. -/
theorem Represents.contains_congr (h : c.Represents vs) {x y : Value} (hx : x.UniqueKeys)
    (hxy : x.equal y = true) : c.contains x = c.contains y := by
  rw [Bool.eq_iff_iff, h.contains_iff, h.contains_iff]
  constructor
  · rintro ⟨v, hv, heq⟩
    exact ⟨v, hv, Value.equal_trans heq hxy⟩
  · rintro ⟨v, hv, heq⟩
    exact ⟨v, hv, Value.equal_trans heq (Value.equal_symm hx hxy)⟩

/-- Values pushed in any order, with any repetitions: they are kept as they came, the positions of the
composites are ascending and all in range, and membership is a linear scan that cannot tell equal values
apart. -/
theorem membership_is_linear_scan (vs : List Value) :
    let c := vs.foldl push empty
    c.toList = vs ∧
    (∀ x, c.contains x = true ↔ ∃ v ∈ vs, v.equal x = true) ∧
    c.composites.toList.Pairwise (· < ·) ∧
    (∀ i ∈ c.composites, i < c.values.size) ∧
    (∀ i, i ∈ c.composites ↔ ∃ v, vs[i]? = some v ∧ v.isComposite = true) ∧
    (∀ x y, x.UniqueKeys → x.equal y = true → c.contains x = c.contains y) := by
  have h : (vs.foldl push empty).Represents vs := represents_ofList vs
  refine ⟨h.values, fun x => h.contains_iff, h.sorted, fun i hi => ?_, h.composites,
    fun x y hx hxy => h.contains_congr hx hxy⟩
  rw [h.size_eq]
  exact h.lt_length hi

/-- The double `2.0` is another way to write `2`, and the order of the entries does not count. -/
theorem membership_of_rewritten_object :
    let two : Value := .number (.double ⟨false, ⟨1024, by decide⟩, ⟨0, by decide⟩⟩)
    let x : Value := .object [("a", .ofNat 1), ("b", .ofNat 2)]
    let y : Value := .object [("b", two), ("a", .ofNat 1)]
    let c := [.string "2", x, two, x].foldl push empty
    x.UniqueKeys ∧ x.equal y = true ∧ c.contains y = true ∧ c.contains x = c.contains y ∧
      1 ∈ c.composites ∧ 1 < c.values.size := by
  intro two x y c
  obtain ⟨-, hmem, -, hrange, hcomp, hcongr⟩ := membership_is_linear_scan [.string "2", x, two, x]
  have hkeys : x.UniqueKeys :=
    .object (by decide) (by simp [Value.ofNat, Value.UniqueKeys.number])
  have hxy : x.equal y = true := by decide
  have hone : 1 ∈ c.composites := (hcomp 1).mpr ⟨x, rfl, rfl⟩
  have hy : c.contains y = true := (hmem y).mpr ⟨x, by simp, hxy⟩
  exact ⟨hkeys, hxy, hy, hcongr x y hkeys hxy, hone, hrange 1 hone⟩

end Candidates

end ForeignKey
