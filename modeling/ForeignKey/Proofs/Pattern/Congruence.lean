import ForeignKey.Proofs.Pattern.Evaluation
import ForeignKey.Proofs.Value.Equality

/-!
# Equal documents are walked alike

Equality looks objects up by key and ignores the order of entries, and so does a walk along a pattern. So
from equal documents a segment leads to the same steps and to equal children, and by induction a pattern
locates equal values at the same places and finds equal values alike.
-/

namespace ForeignKey

namespace Value

/-- `b` is equal to `a`, which repeats no key. Both are handed down to the parts of `a`. -/
structure WrittenAs (a b : Value) : Prop where
  uniqueKeys : a.UniqueKeys
  equal : a.equal b = true

/-! ## Parts of equal values -/

theorem WrittenAs.lookup {as bs : List (String × Value)} (h : (object as).WrittenAs (object bs))
    (key : String) : Option.Rel WrittenAs (Value.lookup key as) (Value.lookup key bs) := by
  cases h.uniqueKeys with
  | object hnd has =>
    cases hv : Value.lookup key as with
    | some v =>
      have hmem := mem_of_lookup hv
      obtain ⟨w, hw, heq⟩ := (equal_object_iff.mp h.equal).2 _ hmem
      rw [hw]
      exact .some ⟨has _ hmem, heq⟩
    | none =>
      -- counting: equal objects have the same keys, so the second one lacks it too
      have hnot : key ∉ bs.map Prod.fst := by
        rw [← (keys_perm_of_equal hnd h.equal).mem_iff]
        exact lookup_eq_none_iff.mp hv
      rw [lookup_eq_none_iff.mpr hnot]
      exact .none

variable {a b : Value}

theorem WrittenAs.field? (h : a.WrittenAs b) (key : String) :
    Option.Rel WrittenAs (a.field? key) (b.field? key) := by
  cases a with
  | object as =>
    cases b with
    | object bs => exact h.lookup key
    | _ => simpa [Value.equal] using h.equal
  | _ =>
    cases b with
    | object bs => simpa [Value.equal] using h.equal
    | _ => exact .none

theorem WrittenAs.items? (h : a.WrittenAs b) :
    Option.Rel (List.Forall₂ WrittenAs) a.items? b.items? := by
  cases a with
  | array as =>
    cases b with
    | array bs =>
      cases h.uniqueKeys with
      | array has =>
        have hitems : List.Forall₂ (fun v w => v.UniqueKeys ∧ v.equal w = true) as bs :=
          (List.forall₂_and_left as bs).mpr ⟨has, equal_array_iff.mp h.equal⟩
        exact .some (hitems.imp fun _ _ hvw => ⟨hvw.1, hvw.2⟩)
    | _ => simpa [Value.equal] using h.equal
  | _ =>
    cases b with
    | array bs => simpa [Value.equal] using h.equal
    | _ => exact .none

end Value

/-! ## Related lists -/

section

variable {α β : Type} {R : α → β → Prop} {as : List α} {bs : List β}

theorem any_eq_of_forall₂ {f : α → Bool} {g : β → Bool} (hfg : ∀ a b, R a b → f a = g b)
    (h : List.Forall₂ R as bs) : as.any f = bs.any g := by
  induction h with
  | nil => rfl
  | cons hab _ ih => rw [List.any_cons, List.any_cons, hfg _ _ hab, ih]

theorem forall₂_zipIdx (h : List.Forall₂ R as bs) (start : Nat) :
    List.Forall₂ (fun x y => R x.1 y.1 ∧ x.2 = y.2) (as.zipIdx start) (bs.zipIdx start) := by
  induction h generalizing start with
  | nil => exact .nil
  | cons hab _ ih =>
    rw [List.zipIdx_cons, List.zipIdx_cons]
    exact .cons ⟨hab, rfl⟩ (ih (start + 1))

end

/-! ## Walks -/

namespace Segment

variable {a b v w : Value}

/-- From equal nodes a segment takes the same steps to equal children. -/
theorem children_congr (h : a.WrittenAs b) (s : Segment) :
    List.Forall₂ (fun c d => c.1 = d.1 ∧ c.2.WrittenAs d.2) (s.children a) (s.children b) := by
  cases s with
  | key name =>
    have hchild := h.field? name
    rw [children, children]
    generalize a.field? name = x at hchild ⊢
    generalize b.field? name = y at hchild ⊢
    cases hchild with
    | some hvw => exact .cons ⟨rfl, hvw⟩ .nil
    | none => exact .nil
  | each =>
    have hitems := h.items?
    rw [children, children]
    generalize a.items? = x at hitems ⊢
    generalize b.items? = y at hitems ⊢
    cases hitems with
    | some hall =>
      show List.Forall₂ _ (indexed _) (indexed _)
      rw [indexed, indexed, List.forall₂_map_left_iff, List.forall₂_map_right_iff]
      exact (forall₂_zipIdx hall 0).imp fun _ _ hvw =>
        ⟨congrArg Step.index hvw.2, hvw.1⟩
    | none => exact .nil

/-- Equal documents have the same locations in the same order, with equal values. -/
theorem located_congr (segments : List Segment) (h : a.WrittenAs b) :
    List.Forall₂ (fun r s => r.1 = s.1 ∧ r.2.WrittenAs s.2) (located segments a)
      (located segments b) := by
  induction segments generalizing a b with
  | nil => exact .cons ⟨rfl, h⟩ .nil
  | cons s rest ih =>
    rw [located_cons, located_cons]
    refine List.rel_flatMap (children_congr h s) fun c d hcd => ?_
    rw [List.forall₂_map_left_iff, List.forall₂_map_right_iff]
    exact (ih hcd.2).imp fun r t hrt => ⟨by rw [hrt.1, hcd.1], hrt.2⟩

/-- Equal values occur in the same documents, however these are written. -/
theorem occurs_congr (segments : List Segment) (hv : v.WrittenAs w) (h : a.WrittenAs b) :
    occurs v segments a = occurs w segments b := by
  induction segments generalizing a b with
  | nil =>
    show a.equal v = b.equal w
    rw [Bool.eq_iff_iff]
    constructor
    · intro hav
      exact Value.equal_trans (Value.equal_symm h.uniqueKeys h.equal)
        (Value.equal_trans hav hv.equal)
    · intro hbw
      exact Value.equal_trans h.equal
        (Value.equal_trans hbw (Value.equal_symm hv.uniqueKeys hv.equal))
  | cons s rest ih =>
    rw [occurs_cons, occurs_cons]
    exact any_eq_of_forall₂ (fun c d hcd => ih hcd.2) (children_congr h s)

end Segment

end ForeignKey
