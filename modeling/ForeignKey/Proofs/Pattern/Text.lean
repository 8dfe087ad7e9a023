import Mathlib.Data.List.Basic
import ForeignKey.Pattern

/-!
# The text of a pattern

A pattern is written with one dot between two segments and none outside. Its segments are writable, so
reading that text gives the pattern back; the text of what was read from a raw text is the normal form
of the raw text.
-/

namespace ForeignKey

namespace Segment

variable {s : Segment}

theorem Writable.text_ne_nil (h : s.Writable) : s.text.toList ≠ [] := by
  cases s with
  | key name =>
    have hname : name ≠ "" := h.1
    intro hnil
    exact hname (String.toList_eq_nil_iff.mp hnil)
  | each => decide

theorem Writable.separator_not_mem_text (h : s.Writable) : Pattern.separator ∉ s.text.toList := by
  cases s with
  | key name => exact h.2.1
  | each => decide

/-- The chunk of a segment stands for that segment. -/
theorem Writable.ofChunk?_text (h : s.Writable) : ofChunk? s.text.toList = some s := by
  rw [ofChunk?, if_neg h.text_ne_nil]
  cases s with
  | key name =>
    have heach : name ≠ eachText := h.2.2
    have hlist : name.toList ≠ eachText.toList := fun heq => heach (String.toList_injective heq)
    show (if name.toList = eachText.toList then _ else some (key (String.ofList name.toList))) = _
    rw [if_neg hlist, String.ofList_toList]
  | each => rfl

end Segment

namespace Pattern

variable {p : Pattern}

theorem mem_keys_iff {name : String} : name ∈ p.keys ↔ .key name ∈ p.segments := by
  rw [keys, List.mem_filterMap]
  constructor
  · rintro ⟨s, hs, hname⟩
    cases s with
    | key name' => rwa [← Option.some.inj hname]
    | each => cases hname
  · exact fun h => ⟨.key name, h, rfl⟩

/-- The chunks of a text between its dots are the segments that it was made of. -/
theorem chunks_text (h : p.segments ≠ []) :
    chunks p.text = p.segments.map fun s => s.text.toList := by
  rw [chunks, text, String.toList_ofList]
  refine Text.split_join ?_ ?_
  · intro hnil
    exact h (List.map_eq_nil_iff.mp hnil)
  · intro chunk hchunk
    obtain ⟨s, hs, rfl⟩ := List.mem_map.mp hchunk
    exact (p.writable s hs).separator_not_mem_text

/-- A written pattern has no empty chunks, unless it is empty itself. -/
theorem nil_not_mem_chunks_text (h : p.segments ≠ []) : [] ∉ chunks p.text := by
  rw [chunks_text h, List.mem_map]
  rintro ⟨s, hs, hnil⟩
  exact (p.writable s hs).text_ne_nil hnil

theorem text_eq_empty (h : p.segments = []) : p.text = "" := by
  rw [text, h]
  rfl

theorem text_eq_intercalate (p : Pattern) : p.text = ".".intercalate (p.segments.map Segment.text) := by
  refine String.toList_injective ?_
  rw [text, String.toList_ofList, String.toList_intercalate, List.map_map, Text.join_eq_intercalate]
  rfl

/-- A written pattern is read as itself. -/
theorem parse_text (p : Pattern) : parse p.text = p := by
  ext1
  rw [parse_segments]
  by_cases h : p.segments = []
  · rw [text_eq_empty h, h]
    rfl
  · calc (chunks p.text).filterMap Segment.ofChunk?
        = p.segments.filterMap fun s => Segment.ofChunk? s.text.toList := by
          rw [chunks_text h, List.filterMap_map]
          rfl
      _ = p.segments.filterMap some :=
          List.filterMap_congr fun s hs => (p.writable s hs).ofChunk?_text
      _ = p.segments := List.filterMap_some

/-- The text of the pattern that a raw text stands for. -/
def normalText (raw : String) : String := (parse raw).text

@[simp] theorem parse_normalText (raw : String) : parse (normalText raw) = parse raw :=
  parse_text (parse raw)

@[simp] theorem normalText_normalText (raw : String) :
    normalText (normalText raw) = normalText raw :=
  congrArg text (parse_normalText raw)

end Pattern

end ForeignKey
