import Mathlib.Data.List.Forall2
import ForeignKey.Text

/-!
# Lines

A line feed ends a line, and a carriage return right before it belongs to the line end; what follows the
last line feed is a line unless it is empty. Cutting a text at every line feed gives these lines, some with
the carriage return of their end, and an empty chunk after the last line end. Writing every line end with a
carriage return more only adds carriage returns to the chunks.
-/

namespace ForeignKey.Text

variable {sep c : Char} {cs rest chunk line : List Char} {more : List (List Char)}

/-- The lines of a text, without their ends. -/
def lines : List Char → List (List Char)
  | [] => []
  | '\n' :: rest => [] :: lines rest
  | '\r' :: '\n' :: rest => [] :: lines rest
  | c :: rest =>
    match lines rest with
    | [] => [[c]]
    | line :: more => (c :: line) :: more

example : lines "a\r\n\nb\rc\r".toList = ["a".toList, [], "b\rc\r".toList] := by decide

/-- A text with a carriage return put before every line feed. -/
def withCarriageReturns (cs : List Char) : List Char :=
  cs.flatMap fun c => if c = '\n' then ['\r', '\n'] else [c]

/-- Whether a chunk is a line, or a line with the carriage return of its end. -/
def IsLine (line chunk : List Char) : Prop := chunk = line ∨ chunk = line ++ ['\r']

theorem IsLine.cons (c : Char) (h : IsLine line chunk) : IsLine (c :: line) (c :: chunk) := by
  rcases h with rfl | rfl
  · exact .inl rfl
  · exact .inr rfl

/-! ## Chunks -/

theorem split_cons_of_ne (hc : c ≠ sep) (h : split sep rest = chunk :: more) :
    split sep (c :: rest) = (c :: chunk) :: more := by
  rw [split, if_neg hc, h]

theorem mem_of_mem_split (hchunk : chunk ∈ split sep cs) (hc : c ∈ chunk) : c ∈ cs := by
  induction cs generalizing chunk with
  | nil =>
    obtain rfl := List.mem_singleton.mp hchunk
    cases hc
  | cons d rest ih =>
    by_cases hd : d = sep
    · rw [hd, split_cons_sep] at hchunk
      rcases List.mem_cons.mp hchunk with rfl | hchunk
      · cases hc
      · exact List.mem_cons_of_mem _ (ih hchunk hc)
    · obtain ⟨first, more, hrest⟩ := List.exists_cons_of_ne_nil (split_ne_nil sep rest)
      rw [split_cons_of_ne hd hrest] at hchunk
      rcases List.mem_cons.mp hchunk with rfl | hchunk
      · rcases List.mem_cons.mp hc with rfl | hc
        · exact List.mem_cons_self
        · exact List.mem_cons_of_mem _ (ih (hrest ▸ List.mem_cons_self) hc)
      · exact List.mem_cons_of_mem _ (ih (hrest ▸ List.mem_cons_of_mem _ hchunk) hc)

theorem lines_eq_nil_iff : lines cs = [] ↔ cs = [] := by
  fun_cases lines cs <;> simp_all

/-- The chunks between line feeds are the lines, with an empty one after the last line end. -/
theorem exists_forall₂_lines_split (cs : List Char) :
    ∃ last : List (List Char), (∀ line ∈ last, line = []) ∧
      List.Forall₂ IsLine (lines cs ++ last) (split '\n' cs) := by
  fun_induction lines cs with
  | case1 => exact ⟨[[]], by simp, .cons (.inl rfl) .nil⟩
  | case2 rest ih =>
    obtain ⟨last, hlast, ih⟩ := ih
    exact ⟨last, hlast, .cons (.inl rfl) ih⟩
  | case3 rest ih =>
    obtain ⟨last, hlast, ih⟩ := ih
    rw [split_cons_of_ne (by decide) (split_cons_sep '\n' rest)]
    exact ⟨last, hlast, .cons (.inr rfl) ih⟩
  | case4 c rest hc _ hnil =>
    -- the text ends without a line end, so no chunk follows
    obtain rfl := lines_eq_nil_iff.mp hnil
    rw [split_cons_of_ne hc (split_nil '\n')]
    exact ⟨[], nofun, .cons (.inl rfl) .nil⟩
  | case5 c rest hc _ line more hlines ih =>
    obtain ⟨last, hlast, ih⟩ := ih
    obtain ⟨chunk, chunks, hrest⟩ := List.exists_cons_of_ne_nil (split_ne_nil '\n' rest)
    rw [hlines, hrest, List.cons_append] at ih
    obtain ⟨hline, hmore⟩ := List.forall₂_cons.mp ih
    rw [split_cons_of_ne hc hrest]
    exact ⟨last, hlast, .cons (hline.cons c) hmore⟩

/-- Another carriage return before every line end stays at the ends of the chunks. -/
theorem forall₂_split_withCarriageReturns (cs : List Char) :
    List.Forall₂ IsLine (split '\n' cs) (split '\n' (withCarriageReturns cs)) := by
  induction cs with
  | nil => exact .cons (.inl rfl) .nil
  | cons c rest ih =>
    by_cases hc : c = '\n'
    · subst hc
      have hend : split '\n' (withCarriageReturns ('\n' :: rest)) =
          ['\r'] :: split '\n' (withCarriageReturns rest) :=
        split_cons_of_ne (by decide) (split_cons_sep '\n' _)
      rw [hend, split_cons_sep]
      exact .cons (.inr rfl) ih
    · have hkept : withCarriageReturns (c :: rest) = c :: withCarriageReturns rest := by
        rw [withCarriageReturns, List.flatMap_cons, if_neg hc]
        rfl
      rw [hkept]
      obtain ⟨chunk, more, hrest⟩ := List.exists_cons_of_ne_nil (split_ne_nil '\n' rest)
      obtain ⟨chunk', more', hrest'⟩ :=
        List.exists_cons_of_ne_nil (split_ne_nil '\n' (withCarriageReturns rest))
      rw [hrest, hrest'] at ih
      rw [split_cons_of_ne hc hrest, split_cons_of_ne hc hrest']
      obtain ⟨hchunk, hmore⟩ := List.forall₂_cons.mp ih
      exact .cons (hchunk.cons c) hmore

end ForeignKey.Text
