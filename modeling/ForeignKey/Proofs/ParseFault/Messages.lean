import ForeignKey.Proofs.ParseFault.Quoting

/-!
# What the messages of shape errors say

A message is put together from fixed words, from names that the reader declares, and from texts of the
input. As long as the declared names are not marked, the message is marked in two cases only: the error is
about an unknown field, or a text that the message quotes is marked itself.
-/

namespace ForeignKey

open ParseFault

/-! ## Parts of a message -/

namespace ShapeError

/-- Whether a key is no field of its record. -/
def isUnknownField : ShapeError → Bool
  | .unknownField _ _ => true
  | _ => false

/-- The texts of the input that the message has in it. -/
def quotes : ShapeError → List String
  | .wrongKind (.string s) _ => [s]
  | .unknownField name _ => [name]
  | .unknownChoice name _ => [name]
  | .pathNotText entry => entry.texts
  | .notPaths found => found.texts
  | _ => []

/-- The names in the message that the reader declares, as the message puts them. What an error about an
unknown field offers is left out, since its message is marked anyway. -/
def ownWords : ShapeError → List String
  | .wrongKind _ expected => [expected.expected]
  | .tooShort record _ _ => [record]
  | .unknownChoice _ known => [offered known]
  | .missingField name => [name]
  | _ => []

end ShapeError

/-! ## Marks of messages -/

theorem ParseFault.Marked.append {a : String} (h : Marked a) (b : String) : Marked (a ++ b) := by
  rw [Marked, String.toList_append, Text.lowered_append]
  exact h.trans (List.prefix_append _ _).isInfix

theorem Value.marked_described_iff {v : Value} :
    Marked v.described ↔ ∃ s, v = .string s ∧ Marked s := by
  have hquote : Separator "`" := ApartFromMark.separator (by decide +kernel)
  cases v with
  | string s =>
    have hstring : Separator "string " := ApartFromMark.separator (by decide +kernel)
    show Marked ("string " ++ Text.shown s) ↔ _
    rw [hstring.marked_append_left_iff, marked_shown_iff]
    simp
  | bool b => cases b <;> exact iff_of_false (by decide) (by simp)
  | number n =>
    refine iff_of_false ?_ (by simp)
    cases n with
    | integer n =>
      have hinteger : Separator "integer `" := ApartFromMark.separator (by decide +kernel)
      show ¬ Marked ("integer `" ++ toString n ++ "`")
      rw [hquote.marked_append_right_iff, hinteger.marked_append_left_iff]
      exact (isNumeral_int n).not_marked
    | double d =>
      have hfloat : Separator "floating point `" := ApartFromMark.separator (by decide +kernel)
      show ¬ Marked ("floating point `" ++ Notation.json.text d ++ "`")
      rw [hquote.marked_append_right_iff, hfloat.marked_append_left_iff]
      exact (isNumeral_double d).not_marked
  | null => exact iff_of_false (by decide) (by simp)
  | array items =>
    have hsequence : ¬ Marked "sequence" := by decide
    exact iff_of_false hsequence (by simp)
  | object entries =>
    have hmap : ¬ Marked "map" := by decide
    exact iff_of_false hmap (by simp)

/-- A message is marked for an unknown field, or for a text that it quotes. -/
theorem ShapeError.marked_message_iff {e : ShapeError} (hown : ∀ w ∈ e.ownWords, ¬ Marked w) :
    Marked e.message ↔ e.isUnknownField = true ∨ ∃ t ∈ e.quotes, Marked t := by
  cases e with
  | wrongKind found expected =>
    have hstart : Separator "invalid type: " := ApartFromMark.separator (by decide +kernel)
    have hmiddle : Separator ", expected " := ApartFromMark.separator (by decide +kernel)
    have hexpected : ¬ Marked expected.expected := hown _ (List.mem_singleton_self _)
    show Marked ("invalid type: " ++ found.described ++ ", expected " ++ expected.expected) ↔ _
    rw [hmiddle.marked_append_iff, hstart.marked_append_left_iff,
      Value.marked_described_iff, or_iff_left hexpected]
    cases found <;> simp [isUnknownField, quotes]
  | negativeCount n =>
    have hstart : Separator "invalid value: integer `" := ApartFromMark.separator (by decide +kernel)
    have hend : Separator "`, expected usize" := ApartFromMark.separator (by decide +kernel)
    show Marked ("invalid value: integer `" ++ toString n ++ "`, expected usize") ↔ _
    rw [hend.marked_append_right_iff, hstart.marked_append_left_iff]
    exact iff_of_false (isNumeral_int n).not_marked (by simp [isUnknownField, quotes])
  | notOneKey => exact iff_of_false (by decide) (by simp [isUnknownField, quotes])
  | tooShort record size index =>
    have hstart : Separator "invalid length " := ApartFromMark.separator (by decide +kernel)
    have hmiddle : Separator ", expected struct " := ApartFromMark.separator (by decide +kernel)
    have hwith : Separator " with " := ApartFromMark.separator (by decide +kernel)
    have hend : Separator (if size = 1 then " element" else " elements") := by
      split <;> exact ApartFromMark.separator (by decide +kernel)
    have hrecord : ¬ Marked record := hown _ (List.mem_singleton_self _)
    show Marked ("invalid length " ++ toString index ++ ", expected struct " ++ record ++ " with "
      ++ toString size ++ (if size = 1 then " element" else " elements")) ↔ _
    rw [hend.marked_append_right_iff, hwith.marked_append_iff, hmiddle.marked_append_iff,
      hstart.marked_append_left_iff]
    refine iff_of_false ?_ (by simp [isUnknownField, quotes])
    rintro ((hindex | hname) | hsize)
    · exact (isNumeral_nat index).not_marked hindex
    · exact hrecord hname
    · exact (isNumeral_nat size).not_marked hsize
  | tooLong length =>
    have hstart : Separator "invalid length " := ApartFromMark.separator (by decide +kernel)
    have hend : Separator ", expected fewer elements in array" :=
      ApartFromMark.separator (by decide +kernel)
    show Marked ("invalid length " ++ toString length ++ ", expected fewer elements in array") ↔ _
    rw [hend.marked_append_right_iff, hstart.marked_append_left_iff]
    exact iff_of_false (isNumeral_nat length).not_marked (by simp [isUnknownField, quotes])
  | unknownField name known =>
    have hmark : Marked "unknown field `" := by decide
    show Marked ("unknown field `" ++ name ++ "`, expected " ++ offered known) ↔ _
    exact iff_of_true (((hmark.append name).append _).append _) (.inl rfl)
  | unknownChoice name known =>
    have hstart : Separator "unknown variant `" := ApartFromMark.separator (by decide +kernel)
    have hmiddle : Separator "`, expected " := ApartFromMark.separator (by decide +kernel)
    have hknown : ¬ Marked (offered known) := hown _ (List.mem_singleton_self _)
    show Marked ("unknown variant `" ++ name ++ "`, expected " ++ offered known) ↔ _
    rw [hmiddle.marked_append_iff, hstart.marked_append_left_iff, or_iff_left hknown]
    simp [isUnknownField, quotes]
  | missingField name =>
    have hstart : Separator "missing field `" := ApartFromMark.separator (by decide +kernel)
    have hend : Separator "`" := ApartFromMark.separator (by decide +kernel)
    show Marked ("missing field `" ++ name ++ "`") ↔ _
    rw [hend.marked_append_right_iff, hstart.marked_append_left_iff]
    exact iff_of_false (hown _ (List.mem_singleton_self _)) (by simp [isUnknownField, quotes])
  | noPaths => exact iff_of_false (by decide) (by simp [isUnknownField, quotes])
  | pathNotText entry =>
    have hstart : Separator "fk path list entries must be strings, got " :=
      ApartFromMark.separator (by decide +kernel)
    show Marked ("fk path list entries must be strings, got " ++ entry.toJson) ↔ _
    rw [hstart.marked_append_left_iff, Value.marked_toJson_iff]
    simp [isUnknownField, quotes]
  | notPaths found =>
    have hstart : Separator "fk path must be a string or a list of strings, got " :=
      ApartFromMark.separator (by decide +kernel)
    show Marked ("fk path must be a string or a list of strings, got " ++ found.toJson) ↔ _
    rw [hstart.marked_append_left_iff, Value.marked_toJson_iff]
    simp [isUnknownField, quotes]

end ForeignKey
