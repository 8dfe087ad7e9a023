import Mathlib.Data.List.Infix
import ForeignKey.Text

/-!
# Searching across separators

A text that is put together from pieces may have a part that none of the pieces has, where the part
reaches from one piece into the next. A separator cuts a part if no occurrence of the part reaches into
the separator; then what is left of it and what is right of it can be searched apart.
-/

namespace ForeignKey.Text

variable {part sep l r : List Char}

/-! ## Lower case -/

@[simp] theorem lowered_append (cs ds : List Char) : lowered (cs ++ ds) = lowered cs ++ lowered ds :=
  List.flatMap_append

theorem lowered_flatMap (f : Char → List Char) (cs : List Char) :
    lowered (cs.flatMap f) = cs.flatMap fun c => lowered (f c) :=
  List.flatMap_assoc

/-! ## Separators -/

/-- What is found around a separator is found on one side of it. -/
def Cuts (part sep : List Char) : Prop :=
  ∀ l r, part <:+: l ++ sep ++ r ↔ part <:+: l ∨ part <:+: r

/-- A part and a separator overlap nowhere: neither holds the other, no beginning of the part is an end
of the separator, and no end of the part its beginning. -/
def Apart (part sep : List Char) : Prop :=
  (∀ x ∈ part.inits, x <:+ sep → x = []) ∧ (∀ y ∈ part.tails, y <+: sep → y = []) ∧
    ¬ part <:+: sep ∧ ¬ sep <:+: part

instance : Decidable (Apart part sep) := inferInstanceAs (Decidable (_ ∧ _ ∧ _ ∧ _))

theorem Apart.cuts (h : Apart part sep) : Cuts part sep := by
  obtain ⟨hinits, htails, hin, hout⟩ := h
  intro l r
  constructor
  · intro hpart
    rcases List.infix_append_iff_ne_nil.mp hpart with hl | hr | ⟨x, y, hx, -, rfl, hxl, -⟩
    · rcases List.infix_append_iff_ne_nil.mp hl with hl | hsep | ⟨x, y, -, hy, rfl, -, hysep⟩
      · exact .inl hl
      · exact absurd hsep hin
      · exact absurd (htails y ((List.mem_tails _ _).mpr (List.suffix_append x y)) hysep) hy
    · exact .inr hr
    · -- the part begins in the separator or before it
      rcases List.suffix_or_suffix_of_suffix hxl (List.suffix_append l sep) with hxsep | hsepx
      · exact absurd (hinits x ((List.mem_inits _ _).mpr (List.prefix_append x y)) hxsep) hx
      · exact absurd (hsepx.isInfix.trans (List.prefix_append x y).isInfix) hout
  · rintro (h | h)
    · rw [List.append_assoc]
      exact h.trans (List.prefix_append l _).isInfix
    · exact h.trans (List.suffix_append _ r).isInfix

theorem apart_singleton {c : Char} (hpart : part ≠ []) (hc : c ∉ part) : Apart part [c] := by
  -- what is in both the part and the separator has no character
  have hnil : ∀ z : List Char, z ⊆ [c] → z ⊆ part → z = [] := by
    intro z hz hzpart
    refine List.eq_nil_iff_forall_not_mem.mpr fun d hd => hc ?_
    rw [← List.mem_singleton.mp (hz hd)]
    exact hzpart hd
  refine ⟨fun x hx hxc => ?_, fun y hy hyc => ?_, fun hin => ?_, fun hout => ?_⟩
  · exact hnil x hxc.subset ((List.mem_inits _ _).mp hx).subset
  · exact hnil y hyc.subset ((List.mem_tails _ _).mp hy).subset
  · exact hpart (hnil part hin.subset (List.Subset.refl part))
  · exact hc (hout.subset (List.mem_singleton_self c))

namespace Cuts

theorem infix_append_left_iff (h : Cuts part sep) : part <:+: sep ++ r ↔ part <:+: r := by
  have hcut := h [] r
  rw [List.nil_append] at hcut
  rw [hcut]
  constructor
  · rintro (hnil | hr)
    · exact hnil.trans List.nil_infix
    · exact hr
  · exact .inr

theorem infix_append_right_iff (h : Cuts part sep) : part <:+: l ++ sep ↔ part <:+: l := by
  have hcut := h l []
  rw [List.append_nil] at hcut
  rw [hcut]
  constructor
  · rintro (hl | hnil)
    · exact hl
    · exact hnil.trans List.nil_infix
  · exact .inl

theorem append {sep' : List Char} (h : Cuts part sep) (h' : Cuts part sep') :
    Cuts part (sep ++ sep') := by
  intro l r
  rw [← List.append_assoc, h', h.infix_append_right_iff]

/-- A separator stays one if characters follow with none of which the part begins. -/
theorem append_of_not_mem {c : Char} {rest cs : List Char} (h : Cuts (c :: rest) sep)
    (hc : c ∉ cs) : Cuts (c :: rest) (sep ++ cs) := by
  have hskip : ∀ r, c :: rest <:+: cs ++ r ↔ c :: rest <:+: r := by
    intro r
    induction cs with
    | nil => rfl
    | cons d ds ih =>
      rw [List.mem_cons, not_or] at hc
      rw [List.cons_append, List.infix_cons_iff, ih hc.2, or_iff_right]
      intro hprefix
      exact hc.1 (List.cons_prefix_cons.mp hprefix).1
  intro l r
  rw [← List.append_assoc, List.append_assoc, h, hskip]

end Cuts

/-! ## Pieces -/

/-- Two ways to write characters agree on a part if each character is written alike or as a separator in
both. -/
theorem infix_flatMap_iff {f g : Char → List Char} {cs : List Char}
    (h : ∀ c, f c = g c ∨ Cuts part (f c) ∧ Cuts part (g c)) :
    part <:+: l ++ cs.flatMap f ↔ part <:+: l ++ cs.flatMap g := by
  induction cs generalizing l with
  | nil => simp
  | cons c rest ih =>
    rw [List.flatMap_cons, List.flatMap_cons, ← List.append_assoc, ← List.append_assoc]
    rcases h c with heq | ⟨hf, hg⟩
    · rw [heq, ih]
    · have hrest := ih (l := [])
      rw [List.nil_append, List.nil_append] at hrest
      rw [hf, hg, hrest]

end ForeignKey.Text
