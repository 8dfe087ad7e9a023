import Mathlib.Data.List.Forall2
import ForeignKey.Proofs.CandidateCache
import ForeignKey.Proofs.Pattern.Text
import ForeignKey.Proofs.Text.Runs
import ForeignKey.Rule

/-!
# What counts in a raw text

Of a raw text a pattern keeps the runs between the dots, each as one segment: `[]` as the fan-out, anything
else as a key. So two texts stand for the same pattern exactly if they have the same runs, and two
declarations of reference paths share an entry of the candidate cache exactly if their texts have the same
runs, one by one. The text that is shown for an entry would not do: a key may hold its quotes and commas.
-/

namespace ForeignKey

/-! ## Runs as segments -/

/-- How a run is read. -/
inductive Segment.ReadFrom : List Char → Segment → Prop where
  | each : ReadFrom ['[', ']'] .each
  | key {run : List Char} (h : run ≠ ['[', ']']) : ReadFrom run (.key (String.ofList run))

namespace Segment

variable {s : Segment} {chunk run : List Char}

theorem ReadFrom.toList_text (h : ReadFrom run s) : s.text.toList = run := by
  cases h with
  | each => rfl
  | key h => exact String.toList_ofList

theorem ofChunk?_eq_none_iff : ofChunk? chunk = none ↔ chunk = [] := by
  unfold ofChunk?
  split
  · next hnil => simp [hnil]
  · next hne => split <;> simp [hne]

/-- An empty chunk is no segment, any other is read as a run. -/
theorem ofChunk?_eq_some_iff : ofChunk? chunk = some s ↔ chunk ≠ [] ∧ ReadFrom chunk s := by
  unfold ofChunk?
  split
  · next hnil => simp [hnil]
  · next hne =>
    split
    · next heach =>
      rw [heach]
      constructor
      · rintro ⟨⟩
        exact ⟨by decide, .each⟩
      · rintro ⟨-, hread⟩
        cases hread with
        | each => rfl
        | key h => exact absurd rfl h
    · next heach =>
      constructor
      · rintro ⟨⟩
        exact ⟨hne, .key heach⟩
      · rintro ⟨-, hread⟩
        cases hread with
        | each => exact absurd rfl heach
        | key h => rfl

theorem filterMap_ofChunk?_eq_iff {chunks : List (List Char)} {segments : List Segment} :
    chunks.filterMap ofChunk? = segments ↔
      List.Forall₂ ReadFrom (chunks.filter (· ≠ [])) segments := by
  induction chunks generalizing segments with
  | nil => simp [eq_comm]
  | cons chunk more ih =>
    cases hchunk : ofChunk? chunk with
    | none =>
      obtain rfl := ofChunk?_eq_none_iff.mp hchunk
      rw [List.filterMap_cons_none hchunk, List.filter_cons_of_neg (by simp), ih]
    | some s =>
      obtain ⟨hne, hread⟩ := ofChunk?_eq_some_iff.mp hchunk
      rw [List.filterMap_cons_some hchunk, List.filter_cons_of_pos (by simpa using hne)]
      constructor
      · rintro rfl
        exact .cons hread (ih.mp rfl)
      · intro h
        cases h with
        | @cons _ t _ rest ht hrest =>
          have hst : some s = some t := hchunk.symm.trans (ofChunk?_eq_some_iff.mpr ⟨hne, ht⟩)
          rw [Option.some.inj hst, ih.mpr hrest]

end Segment

/-! ## Raw texts -/

namespace Pattern

variable {raw raw' : String}

/-- The chunks between the dots of a raw text that are not empty. -/
def nonemptyChunks (raw : String) : List (List Char) := (chunks raw).filter (· ≠ [])

theorem runs_iff_nonemptyChunks {runs : List (List Char)} :
    Text.Runs separator raw.toList runs ↔ runs = nonemptyChunks raw :=
  Text.runs_iff

theorem parse_segments_eq_iff {segments : List Segment} :
    (parse raw).segments = segments ↔ List.Forall₂ Segment.ReadFrom (nonemptyChunks raw) segments :=
  Segment.filterMap_ofChunk?_eq_iff

/-- The segments of a raw text are written as its runs. -/
theorem map_text_parse (raw : String) :
    (parse raw).segments.map (fun s => s.text.toList) = nonemptyChunks raw := by
  have hread := parse_segments_eq_iff.mp (Eq.refl (parse raw).segments)
  have htexts : List.Forall₂ (· = ·) (nonemptyChunks raw)
      ((parse raw).segments.map fun s => s.text.toList) :=
    List.forall₂_map_right_iff.mpr (hread.imp fun _ _ h => h.toList_text.symm)
  rw [List.forall₂_eq_eq_eq] at htexts
  exact htexts.symm

theorem parse_eq_parse_iff : parse raw = parse raw' ↔ nonemptyChunks raw = nonemptyChunks raw' := by
  constructor
  · intro h
    rw [← map_text_parse raw, ← map_text_parse raw', h]
  · intro h
    ext1
    rw [parse_segments_eq_iff, h]
    exact parse_segments_eq_iff.mp rfl

theorem isRoot_parse_iff : (parse raw).isRoot = true ↔ ∀ c ∈ raw.toList, c = separator := by
  calc (parse raw).isRoot = true
      ↔ nonemptyChunks raw = [] := by rw [isRoot, List.isEmpty_iff, ← map_text_parse, List.map_eq_nil_iff]
    _ ↔ Text.Runs separator raw.toList [] := by rw [runs_iff_nonemptyChunks, eq_comm]
    _ ↔ ∀ c ∈ raw.toList, c = separator := Text.runs_nil_iff

/-- A raw text is written back if none of its chunks is empty. The empty text is as well, though its one
chunk is. -/
theorem text_parse_eq_iff : (parse raw).text = raw ↔ raw = "" ∨ [] ∉ chunks raw := by
  constructor
  · intro h
    by_cases hsegments : (parse raw).segments = []
    · rw [text_eq_empty hsegments] at h
      exact .inl h.symm
    · have hchunks := nil_not_mem_chunks_text hsegments
      rw [h] at hchunks
      exact .inr hchunks
  · rintro (rfl | h)
    · rfl
    · have hkept : nonemptyChunks raw = chunks raw := by
        refine List.filter_eq_self.mpr fun chunk hchunk => ?_
        have hne : chunk ≠ [] := ne_of_mem_of_not_mem hchunk h
        simpa using hne
      rw [text, map_text_parse, hkept, chunks, Text.join_split, String.ofList_toList]

end Pattern

/-! ## Declarations -/

namespace ReferencePaths

variable {paths paths' : ReferencePaths}

/-- Whether the texts of two declarations have the same runs, one by one. -/
def SameChunks (paths paths' : ReferencePaths) : Prop :=
  List.Forall₂ (fun raw raw' => Pattern.nonemptyChunks raw = Pattern.nonemptyChunks raw') paths.raws
    paths'.raws

theorem map_parse_eq_iff :
    paths.raws.map Pattern.parse = paths'.raws.map Pattern.parse ↔ paths.SameChunks paths' := by
  rw [← List.forall₂_eq_eq_eq, List.forall₂_map_left_iff, List.forall₂_map_right_iff]
  simp only [Pattern.parse_eq_parse_iff]
  rfl

/-- A declaration with some text has a union, that of the patterns of its texts. -/
theorem exists_union?_eq (h : paths.raws ≠ []) :
    ∃ u, paths.union? = some u ∧ u.patterns = paths.raws.map Pattern.parse := by
  obtain ⟨u, hu⟩ := Option.ne_none_iff_exists'.mp fun hnone => h (union?_eq_none_iff.mp hnone)
  exact ⟨u, hu, PatternUnion.patterns_of_ofList? hu⟩

end ReferencePaths

theorem PatternUnion.ext_iff_patterns {u v : PatternUnion} : u = v ↔ u.patterns = v.patterns := by
  cases u
  cases v
  rw [mk.injEq]

/-- An entry is served for another union only if the unions are equal. -/
theorem CandidateCache.isSome_get?_resolve_iff {cache : CandidateCache} {u v : PatternUnion}
    (h : cache.get? v = none) (document : Value) :
    ((cache.resolve u document).cache.get? v).isSome = true ↔ u = v := by
  rw [get?_resolve]
  split
  · next huv => simp [huv]
  · next huv => simp [huv, h]

/-- A raw text is read run by run; what is written is read back, and a raw text is written back if it has
no empty chunk. So declarations have one key of the candidate cache, and are served one entry, exactly if
their texts have the same chunks but for empty ones, whatever characters these hold. -/
theorem raw_texts_count_by_runs :
    (∀ raw segments, (Pattern.parse raw).segments = segments ↔
      ∃ runs, Text.Runs '.' raw.toList runs ∧ List.Forall₂ Segment.ReadFrom runs segments) ∧
    (∀ raw name, .key name ∈ (Pattern.parse raw).segments →
      name ≠ "" ∧ '.' ∉ name.toList ∧ name ≠ "[]") ∧
    (∀ p : Pattern, Pattern.parse p.text = p) ∧
    (∀ raw, (Pattern.parse raw).text = raw ↔ raw = "" ∨ [] ∉ Pattern.chunks raw) ∧
    (∀ raw, (Pattern.parse raw).isRoot = true ↔ ∀ c ∈ raw.toList, c = '.') ∧
    (∀ paths paths' : ReferencePaths, paths.raws ≠ [] → paths'.raws ≠ [] →
      ∃ u v, paths.union? = some u ∧ paths'.union? = some v ∧ (u = v ↔ paths.SameChunks paths') ∧
        ∀ (cache : CandidateCache) (document : Value), cache.get? v = none →
          (((cache.resolve u document).cache.get? v).isSome = true ↔ paths.SameChunks paths')) ∧
    (∀ raw, (ReferencePaths.single raw).union? = (ReferencePaths.alternatives [raw]).union?) := by
  refine ⟨fun raw segments => ?_, fun raw name hname => (Pattern.parse raw).writable _ hname,
    Pattern.parse_text, fun raw => Pattern.text_parse_eq_iff, fun raw => Pattern.isRoot_parse_iff,
    fun paths paths' h h' => ?_, fun raw => rfl⟩
  · rw [Pattern.parse_segments_eq_iff]
    constructor
    · exact fun hread => ⟨_, Pattern.runs_iff_nonemptyChunks.mpr rfl, hread⟩
    · rintro ⟨runs, hruns, hread⟩
      obtain rfl := Pattern.runs_iff_nonemptyChunks.mp hruns
      exact hread
  · obtain ⟨u, hu, hpatterns⟩ := ReferencePaths.exists_union?_eq h
    obtain ⟨v, hv, hpatterns'⟩ := ReferencePaths.exists_union?_eq h'
    have hkey : u = v ↔ paths.SameChunks paths' := by
      rw [PatternUnion.ext_iff_patterns, hpatterns, hpatterns', ReferencePaths.map_parse_eq_iff]
    exact ⟨u, v, hu, hv, hkey, fun cache document hnone =>
      (CandidateCache.isSome_get?_resolve_iff hnone document).trans hkey⟩

/-- One key with quotes and a comma in it is shown as two keys are, but it is not served their entry. -/
theorem quoted_key_has_own_entry :
    let quoted := ReferencePaths.single "a\", \"b"
    let two := ReferencePaths.alternatives ["a", "b."]
    quoted.raws ≠ [] ∧ two.raws ≠ [] ∧
      ∃ u v, quoted.union? = some u ∧ two.union? = some v ∧ u.text = v.text ∧ u ≠ v ∧
        ((CandidateCache.empty.resolve u .null).cache.get? v).isSome = false := by
  intro quoted two
  have hquoted : quoted.raws ≠ [] := by decide
  have htwo : two.raws ≠ [] := by decide
  obtain ⟨-, -, -, -, -, hkeys, -⟩ := raw_texts_count_by_runs
  obtain ⟨u, v, hu, hv, hkey, hentry⟩ := hkeys quoted two hquoted htwo
  have hother : ¬ quoted.SameChunks two := by
    intro h
    cases h.length_eq
  refine ⟨hquoted, htwo, u, v, hu, hv, ?_, fun huv => hother (hkey.mp huv), ?_⟩
  · have hsame : quoted.union?.map PatternUnion.text = two.union?.map PatternUnion.text := by decide
    rw [hu, hv] at hsame
    exact Option.some.inj hsame
  · rw [Bool.eq_false_iff]
    exact fun hsome => hother ((hentry .empty .null rfl).mp hsome)

end ForeignKey
