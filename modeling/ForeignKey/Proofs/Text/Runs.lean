import ForeignKey.Text

/-!
# Runs between separators

A text between separators falls into runs: stretches of other characters that no character of their kind
precedes or follows. Cutting the text at every separator leaves these runs and, where two separators meet
or one stands at an end of the text, empty chunks; without the empty chunks, the chunks are the runs.
-/

namespace ForeignKey.Text

variable {sep : Char} {cs : List Char} {runs : List (List Char)}

/-- The maximal runs of characters other than the separator, from left to right. -/
inductive Runs (sep : Char) : List Char → List (List Char) → Prop where
  /-- There are none where there is nothing but separators. -/
  | none {gap : List Char} (hgap : ∀ c ∈ gap, c = sep) : Runs sep gap []
  /-- The first one comes after the leading separators, and only a separator or the end stops it. -/
  | run {gap run rest : List Char} {runs : List (List Char)} (hgap : ∀ c ∈ gap, c = sep)
    (hne : run ≠ []) (hrun : sep ∉ run) (hstop : ∀ c ∈ rest.head?, c = sep) (hrest : Runs sep rest runs) :
    Runs sep (gap ++ run ++ rest) (run :: runs)

theorem Runs.cons_sep (h : Runs sep cs runs) : Runs sep (sep :: cs) runs := by
  cases h with
  | none hgap => exact .none (List.forall_mem_cons.mpr ⟨rfl, hgap⟩)
  | @run gap run rest _ hgap hne hrun hstop hrest =>
    show Runs sep ((sep :: gap) ++ run ++ rest) _
    exact .run (List.forall_mem_cons.mpr ⟨rfl, hgap⟩) hne hrun hstop hrest

theorem runs_nil_iff : Runs sep cs [] ↔ ∀ c ∈ cs, c = sep := by
  constructor
  · intro h
    cases h with
    | none hgap => exact hgap
  · exact .none

/-! ## Chunks and runs -/

/-- The chunks of a joined text are its runs, the empty ones left out. -/
theorem runs_join {chunks : List (List Char)} (h : ∀ chunk ∈ chunks, sep ∉ chunk) :
    Runs sep (join sep chunks) (chunks.filter (· ≠ [])) := by
  induction chunks with
  | nil => exact .none nofun
  | cons chunk more ih =>
    obtain ⟨hchunk, hmore⟩ := List.forall_mem_cons.mp h
    -- what follows the chunk is stopped at once, and has the runs of the other chunks
    obtain ⟨rest, hjoin, hstop, hrest⟩ : ∃ rest, join sep (chunk :: more) = chunk ++ rest ∧
        (∀ c ∈ rest.head?, c = sep) ∧ Runs sep rest (more.filter (· ≠ [])) := by
      cases more with
      | nil => exact ⟨[], (List.append_nil chunk).symm, nofun, .none nofun⟩
      | cons next more =>
        refine ⟨sep :: join sep (next :: more), rfl, ?_, (ih hmore).cons_sep⟩
        intro c hc
        exact (Option.some.inj hc).symm
    rw [hjoin]
    by_cases hnil : chunk = []
    · rw [hnil, List.filter_cons_of_neg (by simp)]
      exact hrest
    · have hgap : ∀ c ∈ ([] : List Char), c = sep := nofun
      rw [List.filter_cons_of_pos (by simpa using hnil)]
      exact .run hgap hnil hchunk hstop hrest

/-- Leading separators leave empty chunks only. -/
theorem filter_split_append {gap : List Char} (hgap : ∀ c ∈ gap, c = sep) (cs : List Char) :
    (split sep (gap ++ cs)).filter (· ≠ []) = (split sep cs).filter (· ≠ []) := by
  induction gap with
  | nil => rfl
  | cons c gap ih =>
    obtain ⟨rfl, hgap⟩ := List.forall_mem_cons.mp hgap
    rw [List.cons_append, split_cons_sep, List.filter_cons_of_neg (by simp), ih hgap]

theorem Runs.eq_filter_split (h : Runs sep cs runs) : runs = (split sep cs).filter (· ≠ []) := by
  induction h with
  | @none gap hgap =>
    have hsplit := filter_split_append hgap []
    rw [List.append_nil] at hsplit
    rw [hsplit]
    rfl
  | @run gap run rest _ hgap hne hrun hstop _ ih =>
    have hkept : ∀ more : List (List Char), (run :: more).filter (· ≠ []) = run :: more.filter (· ≠ []) :=
      fun more => List.filter_cons_of_pos (by simpa using hne)
    rw [List.append_assoc, filter_split_append hgap, ih]
    cases rest with
    | nil =>
      rw [List.append_nil, split_of_not_mem hrun, hkept]
      rfl
    | cons c rest =>
      obtain rfl : c = sep := hstop c rfl
      rw [split_append_cons_sep, split_of_not_mem hrun, split_cons_sep, List.filter_cons_of_neg (by simp),
        List.singleton_append, hkept]

/-- A text has one list of runs, its chunks without the empty ones. -/
theorem runs_iff : Runs sep cs runs ↔ runs = (split sep cs).filter (· ≠ []) := by
  constructor
  · exact Runs.eq_filter_split
  · rintro rfl
    have hjoin := runs_join fun chunk (hchunk : chunk ∈ split sep cs) => not_mem_of_mem_split hchunk
    rwa [join_split] at hjoin

end ForeignKey.Text
