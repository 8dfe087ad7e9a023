import ForeignKey.Proofs.Pattern.Positions
import ForeignKey.Proofs.Pattern.Text

/-!
# Positions that a text can name

A pattern has a key segment only for a key that can be written: one that is not empty, holds no dot and does
not look like the fan-out. So no text leads to a position below another key. To every other position a text
leads, namely its keys and one `[]` for each index, with dots between them.
-/

namespace ForeignKey

namespace Segment

instance : DecidablePred Writable
  | .key _ => inferInstanceAs (Decidable (_ ∧ _ ∧ _))
  | .each => .isTrue trivial

end Segment

namespace Location

variable {l : Location}

/-- Whether all keys on the way to a location can be written. -/
def Addressable (l : Location) : Prop :=
  ∀ name, Step.key name ∈ l.steps → name ≠ "" ∧ '.' ∉ name.toList ∧ name ≠ "[]"

/-- The keys on the way and one `[]` for each index, with dots between them. -/
def patternText (l : Location) : String :=
  ".".intercalate (l.steps.map fun
    | .key name => name
    | .index _ => "[]")

theorem addressable_iff : l.Addressable ↔ ∀ s ∈ l.steps.map Step.segment, s.Writable := by
  rw [List.forall_mem_map]
  constructor
  · intro h step hstep
    cases step with
    | key name => exact h name hstep
    | index i => trivial
  · exact fun h name hname => h (.key name) hname

instance : Decidable l.Addressable := decidable_of_iff _ addressable_iff.symm

/-- The pattern that describes an addressable location. -/
def pattern (l : Location) (h : l.Addressable) : Pattern := ⟨l.steps.map Step.segment, addressable_iff.mp h⟩

theorem parse_patternText (h : l.Addressable) : Pattern.parse l.patternText = l.pattern h := by
  have htext : (l.pattern h).text = l.patternText := by
    rw [Pattern.text_eq_intercalate, pattern, patternText, List.map_map]
    congr 1
    refine List.map_congr_left fun step _ => ?_
    cases step <;> rfl
  rw [← htext, Pattern.parse_text]

end Location

namespace Pattern

variable {document v : Value} {l : Location}

theorem describes_patternText (h : l.Addressable) : (parse l.patternText).Describes l := by
  rw [describes_iff, Location.parse_patternText h]
  rfl

/-- Some text describes a location exactly if its keys can be written. -/
theorem exists_parse_describes_iff : (∃ raw, (parse raw).Describes l) ↔ l.Addressable := by
  constructor
  · rintro ⟨raw, h⟩
    rw [Location.addressable_iff, ← describes_iff.mp h]
    exact (parse raw).writable
  · exact fun h => ⟨l.patternText, describes_patternText h⟩

theorem fansOut_patternText (h : l.Addressable) (hkeys : ∀ i, .index i ∉ l.steps) :
    (parse l.patternText).fansOut = false := by
  have hnot : .each ∉ l.steps.map Step.segment := by
    intro hmem
    obtain ⟨step, hstep, heach⟩ := List.mem_map.mp hmem
    cases step with
    | key name => cases heach
    | index i => exact hkeys i hstep
  rw [Location.parse_patternText h]
  simpa [fansOut, Location.pattern] using hnot

/-- Without an index on the way, the text of a location finds the value there and no other. -/
theorem collect_patternText (h : l.Addressable) (hkeys : ∀ i, .index i ∉ l.steps)
    (hv : (l, v) ∈ (parse l.patternText).locate document) :
    (parse l.patternText).collect document = [v] := by
  have hmem : v ∈ (parse l.patternText).collect document := by
    rw [← map_snd_locate]
    exact List.mem_map_of_mem hv
  have hle : ((parse l.patternText).collect document).length ≤ 1 := by
    rw [← map_snd_locate, List.length_map]
    exact length_locate_le_one (fansOut_patternText h hkeys) document
  obtain ⟨w, hw⟩ := List.length_eq_one_iff.mp (Nat.le_antisymm hle (List.length_pos_of_mem hmem))
  rw [hw, List.mem_singleton] at hmem
  rw [hw, hmem]

/-- Of the positions of a document, texts lead to those with keys that can be written: the text of such a
position finds it with its value, and that value alone if there is no index on the way. -/
theorem texts_lead_to_addressable_positions (h : document.at? l.steps = some v) :
    ((∃ raw, ∃ r ∈ (parse raw).locate document, r.1 = l) ↔ l.Addressable) ∧
    (l.Addressable →
      (l, v) ∈ (parse l.patternText).locate document ∧
      ((∀ i, .index i ∉ l.steps) → (parse l.patternText).collect document = [v])) := by
  have hlocate (raw : String) :
      (∃ r ∈ (parse raw).locate document, r.1 = l) ↔ (parse raw).Describes l := by
    constructor
    · rintro ⟨r, hr, rfl⟩
      exact (mem_locate_iff.mp hr).1
    · exact fun hdescribes => ⟨(l, v), mem_locate_iff.mpr ⟨hdescribes, h⟩, rfl⟩
  refine ⟨?_, fun hl => ?_⟩
  · simp only [hlocate]
    exact exists_parse_describes_iff
  · have hv : (l, v) ∈ (parse l.patternText).locate document :=
      mem_locate_iff.mpr ⟨describes_patternText hl, h⟩
    exact ⟨hv, fun hkeys => collect_patternText hl hkeys hv⟩

/-- `cars.[].id` leads to the id of a car and `owner.name` to a name, but no text leads below `a.b`. -/
theorem texts_lead_past_dotted_key :
    let document : Value := .object [("cars", .array [.object [("id", .ofNat 7)]]),
      ("owner", .object [("name", .string "bo")]), ("a.b", .null)]
    let id : Location := ⟨[.key "cars", .index 0, .key "id"]⟩
    let name : Location := ⟨[.key "owner", .key "name"]⟩
    let dotted : Location := ⟨[.key "a.b"]⟩
    id.patternText = "cars.[].id" ∧ id.Addressable ∧ (id, .ofNat 7) ∈ (parse "cars.[].id").locate document ∧
      name.Addressable ∧ (parse "owner.name").collect document = [.string "bo"] ∧
      document.at? dotted.steps = some .null ∧ ¬ dotted.Addressable ∧
      ¬ ∃ raw, ∃ r ∈ (parse raw).locate document, r.1 = dotted := by
  intro document id name dotted
  have hid : id.Addressable := by decide
  have hname : name.Addressable := by decide
  have hdotted : ¬ dotted.Addressable := by decide
  obtain ⟨-, hfound⟩ := texts_lead_to_addressable_positions
    (show document.at? id.steps = some (.ofNat 7) from rfl)
  obtain ⟨-, hnamed⟩ := texts_lead_to_addressable_positions
    (show document.at? name.steps = some (.string "bo") from rfl)
  obtain ⟨hnever, -⟩ := texts_lead_to_addressable_positions
    (show document.at? dotted.steps = some .null from rfl)
  have hidText : id.patternText = "cars.[].id" := by decide
  have hnameText : name.patternText = "owner.name" := by decide
  have hkeys : ∀ i, .index i ∉ name.steps := by simp [name]
  refine ⟨hidText, hid, ?_, hname, ?_, rfl, hdotted, fun h => hdotted (hnever.mp h)⟩
  · rw [← hidText]
    exact (hfound hid).1
  · rw [← hnameText]
    exact (hnamed hname).2 hkeys

end Pattern

end ForeignKey
