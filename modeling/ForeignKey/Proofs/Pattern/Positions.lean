import Mathlib.Data.List.Forall2
import ForeignKey.Proofs.Pattern.Evaluation

/-!
# The positions that a pattern describes

A pattern describes a location when they agree step by step: a key segment with that key, a fan-out with
any index. The main statement is that `Pattern.locate` lists the described positions of a document that
lead to a node, each once with its node, and in the lexicographic order of their indices.
-/

namespace ForeignKey

/-- Whether a segment describes a step. -/
inductive Segment.Fits : Segment → Step → Prop where
  | key (name : String) : Fits (.key name) (.key name)
  | each (i : Nat) : Fits .each (.index i)

/-- Whether a pattern describes a location. -/
def Pattern.Describes (p : Pattern) (l : Location) : Prop :=
  List.Forall₂ Segment.Fits p.segments l.steps

/-- The one segment that describes a step. -/
def Step.segment : Step → Segment
  | .key name => .key name
  | .index _ => .each

theorem Segment.fits_iff {s : Segment} {step : Step} : s.Fits step ↔ s = step.segment := by
  constructor
  · intro h
    cases h <;> rfl
  · rintro rfl
    cases step with
    | key name => exact .key name
    | index i => exact .each i

/-- A location is described by the segments of its steps and by no others. -/
theorem Pattern.describes_iff {p : Pattern} {l : Location} :
    p.Describes l ↔ p.segments = l.steps.map Step.segment := by
  rw [Describes, ← List.forall₂_eq_eq_eq, List.forall₂_map_right_iff]
  constructor
  · exact fun h => h.imp fun _ _ => Segment.fits_iff.mp
  · exact fun h => h.imp fun _ _ => Segment.fits_iff.mpr

namespace Location

/-- The indices on the way, from the outermost to the innermost. -/
def indices (l : Location) : List Nat :=
  l.steps.filterMap fun
    | .index i => some i
    | .key _ => none

/-- The order of the walk: the first index that differs decides. -/
def Precedes (a b : Location) : Prop := List.Lex (· < ·) a.indices b.indices

theorem Precedes.ne {a b : Location} (h : a.Precedes b) : a ≠ b := by
  rintro rfl
  exact List.lex_irrefl Nat.lt_irrefl a.indices h

theorem Precedes.under {a b : Location} (h : a.Precedes b) (step : Step) :
    (a.under step).Precedes (b.under step) := by
  cases step with
  | key name => exact h
  | index i => exact .cons h

theorem precedes_under_of_lt {i j : Nat} (h : i < j) (a b : Location) :
    (a.under (.index i)).Precedes (b.under (.index j)) :=
  .rel h

end Location

theorem pairwise_lt_zipIdx {α : Type} (xs : List α) : xs.zipIdx.Pairwise fun r s => r.2 < s.2 := by
  have hindices : (xs.zipIdx.map Prod.snd).Pairwise (· < ·) := by
    rw [List.zipIdx_map_snd]
    exact List.pairwise_lt_range'
  exact List.pairwise_map.mp hindices

namespace Segment

variable {node v : Value} {s : Segment} {segments : List Segment}

/-! ## One segment -/

theorem mem_indexed_iff {items : List Value} {step : Step} {child : Value} :
    (step, child) ∈ indexed items ↔ ∃ i, step = .index i ∧ items[i]? = some child := by
  rw [indexed, List.mem_map]
  constructor
  · rintro ⟨⟨item, i⟩, hmem, heq⟩
    cases heq
    exact ⟨i, rfl, List.mk_mem_zipIdx_iff_getElem?.mp hmem⟩
  · rintro ⟨i, rfl, hi⟩
    exact ⟨(child, i), List.mk_mem_zipIdx_iff_getElem?.mpr hi, rfl⟩

/-- A segment leads to the children under the steps that it describes. -/
theorem mem_children_iff {step : Step} {child : Value} :
    (step, child) ∈ s.children node ↔ s.Fits step ∧ node.child? step = some child := by
  cases s with
  | key name =>
    rw [children]
    constructor
    · intro h
      cases hf : node.field? name with
      | none => simp [hf] at h
      | some c =>
        obtain ⟨rfl, rfl⟩ : step = .key name ∧ child = c := by simpa [hf] using h
        exact ⟨.key name, hf⟩
    · rintro ⟨hfits, hchild⟩
      cases hfits
      rw [Value.child?] at hchild
      simp [hchild]
  | each =>
    rw [children]
    constructor
    · intro h
      cases hi : node.items? with
      | none => simp [hi] at h
      | some items =>
        rw [hi] at h
        obtain ⟨i, rfl, hget⟩ := mem_indexed_iff.mp h
        exact ⟨.each i, by simp [Value.child?, hi, hget]⟩
    · rintro ⟨hfits, hchild⟩
      cases hfits with
      | each i =>
        obtain ⟨items, hi, hget⟩ := Option.bind_eq_some_iff.mp hchild
        rw [hi]
        exact mem_indexed_iff.mpr ⟨i, rfl, hget⟩

/-- Several children only stand under indices, and these are ascending. -/
theorem children_pairwise (s : Segment) (node : Value) :
    (s.children node).Pairwise fun c d =>
      ∃ i j, c.1 = .index i ∧ d.1 = .index j ∧ i < j := by
  cases s with
  | key name =>
    rw [children]
    cases node.field? name <;> simp
  | each =>
    rw [children]
    cases node.items? with
    | none => exact .nil
    | some items =>
      show (indexed items).Pairwise _
      rw [indexed, List.pairwise_map]
      exact (pairwise_lt_zipIdx items).imp fun h => ⟨_, _, rfl, rfl, h⟩

/-! ## All segments -/

theorem mem_located_iff {l : Location} :
    (l, v) ∈ located segments node ↔
      List.Forall₂ Fits segments l.steps ∧ node.at? l.steps = some v := by
  induction segments generalizing node l with
  | nil =>
    obtain ⟨steps⟩ := l
    simp only [located, List.mem_singleton, Prod.mk.injEq, List.forall₂_nil_left_iff]
    constructor
    · rintro ⟨hroot, rfl⟩
      cases hroot
      exact ⟨rfl, rfl⟩
    · rintro ⟨rfl, hat⟩
      exact ⟨rfl, (Option.some.inj hat).symm⟩
  | cons s rest ih =>
    rw [located_cons, List.mem_flatMap]
    constructor
    · rintro ⟨⟨step, child⟩, hc, hr⟩
      obtain ⟨⟨l', v'⟩, hl', heq⟩ := List.mem_map.mp hr
      cases heq
      obtain ⟨hfits, hchild⟩ := mem_children_iff.mp hc
      obtain ⟨hrest, hat⟩ := ih.mp hl'
      exact ⟨.cons hfits hrest, Option.bind_eq_some_iff.mpr ⟨child, hchild, hat⟩⟩
    · obtain ⟨steps⟩ := l
      rintro ⟨hfits, hat⟩
      cases hfits with
      | @cons _ step _ steps hs hrest =>
        obtain ⟨child, hchild, hat⟩ := Option.bind_eq_some_iff.mp hat
        exact ⟨(step, child), mem_children_iff.mpr ⟨hs, hchild⟩,
          List.mem_map.mpr ⟨(⟨steps⟩, v), ih.mpr ⟨hrest, hat⟩, rfl⟩⟩

theorem located_pairwise (segments : List Segment) (node : Value) :
    (located segments node).Pairwise fun a b => a.1.Precedes b.1 := by
  induction segments generalizing node with
  | nil => exact List.pairwise_singleton _ _
  | cons s rest ih =>
    rw [located_cons, List.pairwise_flatMap]
    constructor
    · -- below one child, the order of the rest
      intro c _
      rw [List.pairwise_map]
      exact (ih c.2).imp fun h => h.under c.1
    · -- below two children, their indices decide
      refine (children_pairwise s node).imp ?_
      rintro c d ⟨i, j, hi, hj, hij⟩ x hx y hy
      obtain ⟨a, -, rfl⟩ := List.mem_map.mp hx
      obtain ⟨b, -, rfl⟩ := List.mem_map.mp hy
      rw [hi, hj]
      exact Location.precedes_under_of_lt hij a.1 b.1

/-- A location described without a fan-out has no indices. -/
theorem indices_eq_nil {steps : List Step} (hfits : List.Forall₂ Fits segments steps)
    (h : .each ∉ segments) : Location.indices ⟨steps⟩ = [] := by
  induction hfits with
  | nil => rfl
  | cons hs _ ih =>
    cases hs with
    | key name => exact ih fun hmem => h (List.mem_cons_of_mem _ hmem)
    | each i => exact absurd List.mem_cons_self h

end Segment

namespace Pattern

theorem mem_locate_iff {p : Pattern} {document v : Value} {l : Location} :
    (l, v) ∈ p.locate document ↔ p.Describes l ∧ document.at? l.steps = some v :=
  Segment.mem_located_iff

theorem nodup_locate (p : Pattern) (document : Value) :
    ((p.locate document).map Prod.fst).Nodup :=
  List.pairwise_map.mpr ((Segment.located_pairwise _ _).imp Location.Precedes.ne)

/-- Without a fan-out, two results would be two locations without indices, and neither could precede
the other. -/
theorem length_locate_le_one {p : Pattern} (h : p.fansOut = false) (document : Value) :
    (p.locate document).length ≤ 1 := by
  have hnot : .each ∉ p.segments := by simpa [fansOut] using h
  have hnil : ∀ r ∈ p.locate document, r.1.indices = [] := fun r hr =>
    Segment.indices_eq_nil (Segment.mem_located_iff.mp hr).1 hnot
  match hl : p.locate document with
  | [] => simp
  | [_] => simp
  | a :: b :: rest =>
    have hpair := Segment.located_pairwise p.segments document
    rw [show Segment.located p.segments document = a :: b :: rest from hl] at hpair
    have hlt : List.Lex (· < ·) a.1.indices b.1.indices :=
      (List.pairwise_cons.mp hpair).1 b List.mem_cons_self
    rw [hl] at hnil
    rw [hnil a (by simp), hnil b (by simp)] at hlt
    cases hlt

/-- A pattern lists exactly the positions that it describes: each that leads to a node once and with that
node, by ascending indices, and with the values that `collect` gives. -/
theorem locate_lists_described_positions (p : Pattern) (document : Value) :
    (∀ l v, (l, v) ∈ p.locate document ↔ p.Describes l ∧ document.at? l.steps = some v) ∧
    ((p.locate document).map Prod.fst).Nodup ∧
    (p.locate document).Pairwise (fun a b => a.1.Precedes b.1) ∧
    (p.locate document).map Prod.snd = p.collect document ∧
    (p.fansOut = false → (p.locate document).length ≤ 1) :=
  ⟨fun _ _ => Segment.mem_located_iff, p.nodup_locate document,
    Segment.located_pairwise p.segments document, p.map_snd_locate document,
    fun h => length_locate_le_one h document⟩

/-- A key that looks like an index is a key: it is found once, and not as an index. -/
theorem locate_bracketed_key :
    let p := parse "a.[0]"
    let document : Value := .object [("a", .object [("[0]", .null)])]
    p.fansOut = false ∧ (p.locate document).length ≤ 1 ∧
      (⟨[.key "a", .key "[0]"]⟩, .null) ∈ p.locate document := by
  intro p document
  obtain ⟨hmem, -, -, -, hlen⟩ := locate_lists_described_positions p document
  have hdescribes : p.Describes ⟨[.key "a", .key "[0]"]⟩ :=
    .cons (.key "a") (.cons (.key "[0]") .nil)
  exact ⟨by decide, hlen (by decide), (hmem _ _).mpr ⟨hdescribes, rfl⟩⟩

end Pattern

end ForeignKey
