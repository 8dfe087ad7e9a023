import Mathlib.Data.Bool.AllAny
import ForeignKey.Parsing
import ForeignKey.Proofs.Text.Search
import ForeignKey.Proofs.Value.Equality

/-!
# The mark of an unknown field in quoted texts

The kind of a shape error is read off its message: it is the one of unknown fields if the message has a
certain mark, in capitals or not. Messages quote texts of the input, in quotes or within JSON. Quoting
neither makes a mark nor breaks one: a text that is quoted has the mark exactly if the text itself has it,
and a value written as JSON has it exactly if one of the texts in the value has.
-/

namespace ForeignKey

namespace ParseFault

/-! ## The mark -/

/-- Whether a text has the mark of an unknown field. -/
def Marked (s : String) : Prop := unknownFieldMark <:+: Text.lowered s.toList

instance (s : String) : Decidable (Marked s) := decidable_of_iff _ Text.contains_iff

theorem kindOfMessage_eq_unknownField_iff {message : String} :
    kindOfMessage message = .unknownField ↔ Marked message := by
  rw [kindOfMessage, Marked, ← Text.contains_iff]
  split <;> simp_all

theorem kindOfMessage_eq_typeMismatch_iff {message : String} :
    kindOfMessage message = .typeMismatch ↔ ¬ Marked message := by
  rw [kindOfMessage, Marked, ← Text.contains_iff]
  split <;> simp_all

/-- What is marked around a separator is marked on one side of it. -/
def Separator (sep : String) : Prop := Text.Cuts unknownFieldMark (Text.lowered sep.toList)

/-- The test for separators. -/
def ApartFromMark (sep : String) : Prop := Text.Apart unknownFieldMark (Text.lowered sep.toList)

instance (sep : String) : Decidable (ApartFromMark sep) := inferInstanceAs (Decidable (Text.Apart _ _))

theorem ApartFromMark.separator {sep : String} (h : ApartFromMark sep) : Separator sep :=
  Text.Apart.cuts h

namespace Separator

variable {sep a b : String}

theorem marked_append_iff (h : Separator sep) : Marked (a ++ sep ++ b) ↔ Marked a ∨ Marked b := by
  rw [Marked, String.toList_append, String.toList_append, Text.lowered_append, Text.lowered_append]
  exact h _ _

theorem marked_append_left_iff (h : Separator sep) : Marked (sep ++ b) ↔ Marked b := by
  rw [Marked, String.toList_append, Text.lowered_append]
  exact Text.Cuts.infix_append_left_iff h

theorem marked_append_right_iff (h : Separator sep) : Marked (a ++ sep) ↔ Marked a := by
  rw [Marked, String.toList_append, Text.lowered_append]
  exact Text.Cuts.infix_append_right_iff h

theorem append {sep' : String} (h : Separator sep) (h' : Separator sep') :
    Separator (sep ++ sep') := by
  rw [Separator, String.toList_append, Text.lowered_append]
  exact Text.Cuts.append h h'

end Separator

/-! ## Numerals -/

/-- The characters of decimal and hexadecimal numerals. -/
def numeralChars : List Char := "0123456789abcdef+-.".toList

/-- Whether a text could be a numeral by its characters. -/
def IsNumeral (s : String) : Prop := ∀ c ∈ s.toList, c ∈ numeralChars

instance (s : String) : Decidable (IsNumeral s) := List.decidableBAll (· ∈ numeralChars) s.toList

theorem IsNumeral.not_mem_lowered {s : String} (h : IsNumeral s) : 'u' ∉ Text.lowered s.toList := by
  intro hu
  obtain ⟨c, hc, hcu⟩ := List.mem_flatMap.mp hu
  have hnumeral : ∀ c ∈ numeralChars, 'u' ∉ Text.lowerChar c :=
    List.all_iff_forall_prop.mp (by decide)
  exact hnumeral c (h c hc) hcu

theorem IsNumeral.not_marked {s : String} (h : IsNumeral s) : ¬ Marked s := fun hmarked =>
  h.not_mem_lowered (hmarked.subset (by decide))

/-- A separator stays one if a numeral follows. -/
theorem Separator.append_numeral {sep s : String} (h : Separator sep) (hs : IsNumeral s) :
    Separator (sep ++ s) := by
  rw [Separator, String.toList_append, Text.lowered_append]
  exact Text.Cuts.append_of_not_mem h hs.not_mem_lowered

theorem IsNumeral.append {a b : String} (ha : IsNumeral a) (hb : IsNumeral b) :
    IsNumeral (a ++ b) := by
  intro c hc
  rw [String.toList_append, List.mem_append] at hc
  exact hc.elim (ha c) (hb c)

theorem isNumeral_ofList {cs : List Char} (h : ∀ c ∈ cs, c ∈ numeralChars) :
    IsNumeral (String.ofList cs) := by
  intro c hc
  rw [String.toList_ofList] at hc
  exact h c hc

theorem mem_numeralChars_of_mem_toDigits {base : Nat} (hbase : 1 < base) (hsixteen : base ≤ 16)
    {n : Nat} : ∀ c ∈ Nat.toDigits base n, c ∈ numeralChars := by
  have hdigit : ∀ d < 16, d.digitChar ∈ numeralChars := by decide
  intro c h
  induction n using Nat.strong_induction_on with
  | _ n ih =>
    rw [Nat.toDigits_eq_if hbase] at h
    split at h
    · rw [List.mem_singleton.mp h]
      exact hdigit n (by omega)
    · rcases List.mem_append.mp h with h | h
      · exact ih (n / base) (Nat.div_lt_self (by omega) hbase) h
      · rw [List.mem_singleton.mp h]
        exact hdigit _ (Nat.lt_of_lt_of_le (Nat.mod_lt n (by omega)) hsixteen)

theorem isNumeral_nat (n : Nat) : IsNumeral (toString n) := by
  intro c hc
  rw [Nat.toString_eq_repr, Nat.toList_repr] at hc
  exact mem_numeralChars_of_mem_toDigits (by decide) (by decide) c hc

theorem isNumeral_int (n : Int) : IsNumeral (toString n) := by
  cases n with
  | ofNat n => exact isNumeral_nat n
  | negSucc n =>
    have hsign : IsNumeral "-" := by decide
    exact hsign.append (isNumeral_nat (n + 1))

theorem isNumeral_exponentText (e : Int) : IsNumeral (Notation.exponentText e) := by
  have hmark : IsNumeral "e" := by decide
  have hsign : IsNumeral (if e < 0 then "-" else "+") := by
    split <;> decide
  exact (hmark.append hsign).append (isNumeral_nat e.natAbs)

theorem isNumeral_layout {digits : List Char} (h : ∀ c ∈ digits, c ∈ numeralChars) (place : Int) :
    IsNumeral (Notation.json.layout digits place) := by
  have hpoint : IsNumeral "." := by decide
  have hzeros : ∀ n, ∀ c ∈ List.replicate n '0', c ∈ numeralChars := by
    intro n c hc
    rw [List.eq_of_mem_replicate hc]
    decide
  have hall : ∀ {as bs : List Char}, (∀ c ∈ as, c ∈ numeralChars) → (∀ c ∈ bs, c ∈ numeralChars) →
      IsNumeral (String.ofList (as ++ bs)) := by
    intro as bs has hbs
    exact isNumeral_ofList fun c hc => (List.mem_append.mp hc).elim (has c) (hbs c)
  unfold Notation.layout
  dsimp only
  split
  · have hend : IsNumeral ".0" := by decide
    exact (hall h (hzeros _)).append hend
  · split
    · have htake : IsNumeral (String.ofList (digits.take place.toNat)) :=
        isNumeral_ofList fun c hc => h c (List.mem_of_mem_take hc)
      have hdrop : IsNumeral (String.ofList (digits.drop place.toNat)) :=
        isNumeral_ofList fun c hc => h c (List.mem_of_mem_drop hc)
      exact (htake.append hpoint).append hdrop
    · split
      · have hstart : IsNumeral "0." := by decide
        exact hstart.append (hall (hzeros _) h)
      · match digits, h with
        | [], _ => exact (by decide : IsNumeral "")
        | [d], h =>
          have hnothing : IsNumeral Notation.json.afterLoneDigit := by decide
          exact ((isNumeral_ofList h).append hnothing).append (isNumeral_exponentText _)
        | d :: e :: rest, h =>
          have hmantissa : ∀ c ∈ [d] ++ '.' :: e :: rest, c ∈ numeralChars := by
            rw [List.forall_mem_cons] at h
            exact List.forall_mem_cons.mpr ⟨h.1, List.forall_mem_cons.mpr ⟨by decide, h.2⟩⟩
          exact (isNumeral_ofList hmantissa).append (isNumeral_exponentText _)

theorem isNumeral_double (d : Binary64) : IsNumeral (Notation.json.text d) := by
  have hmagnitude : IsNumeral (if d.significand = 0 then "0.0" else
      Notation.json.layout (Decimal.digitChars (Decimal.shortest d).digits)
        ((Decimal.digitChars (Decimal.shortest d).digits).length + (Decimal.shortest d).exponent)) := by
    split
    · decide
    · exact isNumeral_layout (mem_numeralChars_of_mem_toDigits (by decide) (by decide)) _
  have hsign : IsNumeral "-" := by decide
  rw [Notation.text]
  split
  · exact hsign.append hmagnitude
  · exact hmagnitude

/-! ## Escapes -/

/-- A text in quotes, some of its characters escaped, is marked exactly if the text is, when escapes and
what they stand for are separators. -/
theorem marked_quoted_iff {escape : Char → String}
    (h : ∀ c, escape c = String.ofList [c] ∨
      Separator (escape c) ∧ Separator (String.ofList [c])) {s : String} :
    Marked ("\"" ++ s.toList.foldl (fun text c => text ++ escape c) "" ++ "\"") ↔ Marked s := by
  have hquote : Separator "\"" := ApartFromMark.separator (by decide +kernel)
  -- the fold writes the characters one after the other, as `flatMap` does
  have hfold : ∀ (cs : List Char) (text : String),
      (cs.foldl (fun text c => text ++ escape c) text).toList =
        text.toList ++ cs.flatMap fun c => (escape c).toList := by
    intro cs
    induction cs with
    | nil => simp
    | cons c rest ih => simp [ih]
  rw [hquote.marked_append_right_iff, hquote.marked_append_left_iff, Marked, Marked, hfold,
    Text.lowered_append, Text.lowered_flatMap]
  refine Text.infix_flatMap_iff fun c => ?_
  rcases h c with heq | ⟨hescape, hchar⟩
  · left
    simp [heq, Text.lowered]
  · right
    exact ⟨hescape, by simpa [Separator, Text.lowered] using hchar⟩

/-- A character that is its own lower case and is not in the mark separates. -/
theorem separator_char {c : Char} (hlower : Text.lowerChar c = [c]) (hc : c ∉ unknownFieldMark) :
    Separator (String.ofList [c]) := by
  have hapart := Text.apart_singleton (by decide) hc
  rw [Separator, String.toList_ofList, Text.lowered, List.flatMap_singleton, hlower]
  exact hapart.cuts

/-- A character that is not among the visible ones of ASCII separates, unless its lower case is. -/
theorem separator_of_not_ascii {c : Char} (h : 32 ≤ c.toNat → ¬ c.toNat ≤ 126) (hkelvin : c ≠ '\u212A')
    (hdotted : c ≠ '\u0130') : Separator (String.ofList [c]) := by
  have hmark : ∀ d ∈ unknownFieldMark, 32 ≤ d.toNat ∧ d.toNat ≤ 126 :=
    List.all_iff_forall_prop.mp (by decide)
  refine separator_char ?_ fun hc => h (hmark c hc).1 (hmark c hc).2
  have hlower : c.toLower = c := by
    refine dif_neg fun hupper => h ?_ ?_
    · exact Nat.le_trans (by decide) hupper.1
    · exact Nat.le_trans hupper.2 (by decide)
  rw [Text.lowerChar, if_neg hkelvin, if_neg hdotted, hlower]

theorem isNumeral_hex (width n : Nat) :
    IsNumeral (String.ofList (Hex.numeral Hex.lowerDigit width n)) := by
  have hdigit : ∀ d < 16, Hex.lowerDigit d ∈ numeralChars := by decide
  refine isNumeral_ofList ?_
  induction width generalizing n with
  | zero => exact nofun
  | succ width ih =>
    intro c hc
    rw [Hex.numeral] at hc
    rcases List.mem_append.mp hc with hc | hc
    · exact ih (n / 16) c hc
    · rw [List.mem_singleton.mp hc]
      exact hdigit _ (Nat.mod_lt n (by decide))

/-- Every character of a JSON string is written as it is, or its escape separates as it does. -/
theorem separator_json_escape (c : Char) :
    Json.escapeChar c = String.ofList [c] ∨
      Separator (Json.escapeChar c) ∧ Separator (String.ofList [c]) := by
  have hshort : ∀ d ∈ ['\x22', '\\', '\x08', '\t', '\n', '\x0c', '\x0d'],
      ApartFromMark (Json.escapeChar d) ∧ ApartFromMark (String.ofList [d]) :=
    List.all_iff_forall_prop.mp (by decide +kernel)
  by_cases hc : c ∈ ['\x22', '\\', '\x08', '\t', '\n', '\x0c', '\x0d']
  · obtain ⟨hescape, hchar⟩ := hshort c hc
    exact .inr ⟨hescape.separator, hchar.separator⟩
  · have hlong : Json.escapeChar c =
        if c.toNat < 32 then "\\u" ++ String.ofList (Hex.numeral Hex.lowerDigit 4 c.toNat)
        else String.ofList [c] := by
      simp only [List.mem_cons, List.not_mem_nil, or_false, not_or] at hc
      obtain ⟨hquote, hslash, hback, htab, hline, hfeed, hreturn⟩ := hc
      rw [Json.escapeChar, if_neg hquote, if_neg hslash, if_neg hback, if_neg htab, if_neg hline,
        if_neg hfeed, if_neg hreturn]
    rw [hlong]
    by_cases hcontrol : c.toNat < 32
    · have hne : ∀ d : Char, 32 ≤ d.toNat → c ≠ d := by
        rintro d hd rfl
        omega
      -- a lone `u` could begin the mark, so the first of the four digits goes with it
      have hopen : Separator "\\u0" := ApartFromMark.separator (by decide +kernel)
      have hdigits : "\\u" ++ String.ofList (Hex.numeral Hex.lowerDigit 4 c.toNat) =
          "\\u0" ++ String.ofList (Hex.numeral Hex.lowerDigit 3 c.toNat) := by
        have hzero : c.toNat / 16 / 16 / 16 = 0 := by omega
        rw [← String.toList_inj]
        simp [Hex.numeral, hzero, Hex.lowerDigit]
      rw [if_pos hcontrol, hdigits]
      exact .inr ⟨hopen.append_numeral (isNumeral_hex 3 c.toNat),
        separator_of_not_ascii (by omega) (hne _ (by decide)) (hne _ (by decide))⟩
    · exact .inl (if_neg hcontrol)

theorem isPrintable_of_ascii {c : Char} (hlow : 32 ≤ c.toNat) (hhigh : c.toNat ≤ 126) :
    Text.isPrintable c = true := by
  have hranges : ∀ r ∈ Text.unprintableRanges, r.2 < 32 ∨ 126 < r.1 := by decide +kernel
  rw [Text.isPrintable, Bool.not_eq_true', List.any_eq_false]
  intro r hr
  simp only [Bool.and_eq_true, decide_eq_true_eq, not_and, Nat.not_le]
  rcases hranges r hr with h | h <;> omega

theorem separator_of_not_printable {c : Char} (h : Text.isPrintable c = false) :
    Separator (String.ofList [c]) := by
  have hne : ∀ d, Text.isPrintable d = true → c ≠ d := by
    rintro d hd rfl
    rw [h] at hd
    cases hd
  exact separator_of_not_ascii (fun hlow hhigh => hne c (isPrintable_of_ascii hlow hhigh) rfl)
    (hne _ (by decide +kernel)) (hne _ (by decide +kernel))

/-- Every character of a text in quotes is shown as it is, or its escape separates as it does. -/
theorem separator_shown (c : Char) :
    Text.shownChar c = String.ofList [c] ∨
      Separator (Text.shownChar c) ∧ Separator (String.ofList [c]) := by
  have hescaped : ∀ d ∈ ['\x22', '\\', '\n', '\x0d', '\t', '\x00'],
      ApartFromMark (Text.shownChar d) ∧ ApartFromMark (String.ofList [d]) :=
    List.all_iff_forall_prop.mp (by decide +kernel)
  by_cases hc : c ∈ ['\x22', '\\', '\n', '\x0d', '\t', '\x00']
  · obtain ⟨hescape, hchar⟩ := hescaped c hc
    exact .inr ⟨hescape.separator, hchar.separator⟩
  · have hshown : Text.shownChar c = if Text.isPrintable c then String.ofList [c]
        else "\\u\x7b" ++ Text.codePointText c ++ "\x7d" := by
      have hzero : c.toNat ≠ 0 := by
        intro hzero
        refine hc ?_
        rw [← Char.ofNat_toNat c, hzero]
        decide
      simp only [List.mem_cons, List.not_mem_nil, or_false, not_or] at hc
      obtain ⟨hquote, hslash, hline, hreturn, htab, -⟩ := hc
      rw [Text.shownChar, if_neg hquote, if_neg hslash, if_neg hline, if_neg hreturn, if_neg htab,
        if_neg hzero]
    rw [hshown]
    -- what is not printable is given by its number
    by_cases hprintable : Text.isPrintable c = true
    · exact .inl (if_pos hprintable)
    · rw [Bool.not_eq_true] at hprintable
      have hopen : Separator "\\u\x7b" := ApartFromMark.separator (by decide +kernel)
      have hclose : Separator "\x7d" := ApartFromMark.separator (by decide +kernel)
      have hdigits : IsNumeral (Text.codePointText c) :=
        isNumeral_ofList (mem_numeralChars_of_mem_toDigits (by decide) (by decide))
      rw [hprintable]
      exact .inr ⟨(hopen.append_numeral hdigits).append hclose, separator_of_not_printable hprintable⟩

theorem marked_json_quote_iff {s : String} : Marked (Json.quote s) ↔ Marked s :=
  marked_quoted_iff separator_json_escape

theorem marked_shown_iff {s : String} : Marked (Text.shown s) ↔ Marked s :=
  marked_quoted_iff separator_shown

end ParseFault

/-! ## Values -/

namespace Value

mutual

/-- The texts in a value, in order: its strings and the keys of its objects. -/
def texts : Value → List String
  | .string s => [s]
  | .array items => itemsTexts items
  | .object entries => entriesTexts entries
  | _ => []
termination_by structural v => v

/-- The texts in the elements of an array. -/
def itemsTexts : List Value → List String
  | [] => []
  | v :: rest => texts v ++ itemsTexts rest
termination_by structural items => items

/-- The texts in the entries of an object. -/
def entriesTexts : List (String × Value) → List String
  | [] => []
  | entry :: rest => entryTexts entry ++ entriesTexts rest
termination_by structural entries => entries

/-- The key of an entry and the texts in its value. -/
def entryTexts : String × Value → List String
  | (key, v) => key :: texts v
termination_by structural entry => entry

end

theorem mem_texts_array {items : List Value} {t : String} :
    t ∈ (Value.array items).texts ↔ ∃ v ∈ items, t ∈ v.texts := by
  rw [texts]
  induction items with
  | nil => simp [itemsTexts]
  | cons v rest ih => rw [itemsTexts, List.mem_append, ih, List.exists_mem_cons_iff]

theorem mem_texts_object {entries : List (String × Value)} {t : String} :
    t ∈ (Value.object entries).texts ↔ ∃ e ∈ entries, t = e.1 ∨ t ∈ e.2.texts := by
  rw [texts]
  induction entries with
  | nil => simp [entriesTexts]
  | cons e rest ih =>
    rw [entriesTexts, List.mem_append, ih, List.exists_mem_cons_iff, entryTexts, List.mem_cons]

open ParseFault

theorem separator_comma : Separator "," := ApartFromMark.separator (by decide +kernel)

theorem marked_itemsJson_iff {items : List Value} :
    Marked (itemsJson items) ↔ ∃ v ∈ items, Marked v.toJson := by
  induction items with
  | nil => exact iff_of_false (by decide) (by simp)
  | cons v rest ih =>
    cases rest with
    | nil => simp [itemsJson]
    | cons w rest =>
      rw [itemsJson, separator_comma.marked_append_iff, ih,
        List.exists_mem_cons_iff (fun v => Marked v.toJson) v]

theorem marked_entryJson_iff {e : String × Value} :
    Marked (entryJson e) ↔ Marked e.1 ∨ Marked e.2.toJson := by
  have hcolon : Separator ":" := ApartFromMark.separator (by decide +kernel)
  rw [entryJson, hcolon.marked_append_iff, marked_json_quote_iff]

theorem marked_entriesJson_iff {entries : List (String × Value)} :
    Marked (entriesJson entries) ↔ ∃ e ∈ entries, Marked (entryJson e) := by
  induction entries with
  | nil => exact iff_of_false (by decide) (by simp)
  | cons e rest ih =>
    cases rest with
    | nil => simp [entriesJson]
    | cons f rest =>
      rw [entriesJson, separator_comma.marked_append_iff, ih,
        List.exists_mem_cons_iff (fun e => Marked (entryJson e)) e]

/-- The JSON text of a value is marked exactly if a text in the value is. -/
theorem marked_toJson_iff {v : Value} : Marked v.toJson ↔ ∃ t ∈ v.texts, Marked t := by
  induction v with
  | null => exact iff_of_false (by decide) (by simp [texts])
  | bool b => cases b <;> exact iff_of_false (by decide) (by simp [texts])
  | number n =>
    refine iff_of_false ?_ (by simp [texts])
    cases n with
    | integer n => exact (isNumeral_int n).not_marked
    | double d => exact (isNumeral_double d).not_marked
  | string s => simp [toJson, texts, marked_json_quote_iff]
  | array items ih =>
    have hopen : Separator "[" := ApartFromMark.separator (by decide +kernel)
    have hclose : Separator "]" := ApartFromMark.separator (by decide +kernel)
    rw [toJson, hclose.marked_append_right_iff, hopen.marked_append_left_iff, marked_itemsJson_iff]
    simp only [mem_texts_array]
    constructor
    · rintro ⟨v, hv, hmarked⟩
      obtain ⟨t, ht, hmarked⟩ := (ih v hv).mp hmarked
      exact ⟨t, ⟨v, hv, ht⟩, hmarked⟩
    · rintro ⟨t, ⟨v, hv, ht⟩, hmarked⟩
      exact ⟨v, hv, (ih v hv).mpr ⟨t, ht, hmarked⟩⟩
  | object entries ih =>
    have hopen : Separator "\x7b" := ApartFromMark.separator (by decide +kernel)
    have hclose : Separator "\x7d" := ApartFromMark.separator (by decide +kernel)
    rw [toJson, hclose.marked_append_right_iff, hopen.marked_append_left_iff,
      marked_entriesJson_iff]
    simp only [mem_texts_object, marked_entryJson_iff]
    constructor
    · rintro ⟨e, he, hkey | hmarked⟩
      · exact ⟨e.1, ⟨e, he, .inl rfl⟩, hkey⟩
      · obtain ⟨t, ht, hmarked⟩ := (ih e he).mp hmarked
        exact ⟨t, ⟨e, he, .inr ht⟩, hmarked⟩
    · rintro ⟨t, ⟨e, he, rfl | ht⟩, hmarked⟩
      · exact ⟨e, he, .inl hmarked⟩
      · exact ⟨e, he, .inr ((ih e he).mpr ⟨t, ht, hmarked⟩)⟩

end Value

end ForeignKey
