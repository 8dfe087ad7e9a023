import ForeignKey.Parsing
import ForeignKey.Proofs.Text.Lines
import ForeignKey.Proofs.Value.Equality

/-!
# Texts of several documents

A line of three dashes at column 0 with nothing but white space after them separates documents. Main
statement: a text is refused for holding several documents exactly if it has a second such line, and the
error has the number of that line, however the lines end. Any other failure to read a document is an error
of its syntax, without a line. All this is so with any reader of single documents; what later statements
need of the reader is that its objects repeat no key.
-/

namespace ForeignKey

/-! ## Numbered lines -/

section Numbers

variable {α β : Type} {p : α → Bool} {n k m : Nat} {x : α} {xs ys : List α}

/-- The numbers of the elements with a property, the first element having the number `n`. -/
def numbersOf (p : α → Bool) (n : Nat) (xs : List α) : List Nat :=
  (xs.zipIdx n).filterMap fun r => if p r.1 then some r.2 else none

theorem numbersOf_cons (p : α → Bool) (n : Nat) (x : α) (xs : List α) :
    numbersOf p n (x :: xs) = if p x then n :: numbersOf p (n + 1) xs else numbersOf p (n + 1) xs := by
  rw [numbersOf, List.zipIdx_cons, List.filterMap_cons]
  cases p x <;> rfl

theorem length_numbersOf (p : α → Bool) (n : Nat) (xs : List α) :
    (numbersOf p n xs).length = xs.countP p := by
  induction xs generalizing n with
  | nil => rfl
  | cons x xs ih =>
    rw [numbersOf_cons, List.countP_cons]
    split
    · rw [List.length_cons, ih]
    · rw [ih, Nat.add_zero]

/-- An element of a list is the first one or has the first one before it. -/
theorem exists_split_cons_iff {P : List α → α → Prop} :
    (∃ before y after, x :: xs = before ++ y :: after ∧ P before y) ↔
      P [] x ∨ ∃ before y after, xs = before ++ y :: after ∧ P (x :: before) y := by
  constructor
  · rintro ⟨before, y, after, hsplit, hP⟩
    cases before with
    | nil =>
      obtain ⟨rfl, -⟩ := List.cons.inj hsplit
      exact .inl hP
    | cons z before =>
      obtain ⟨rfl, hrest⟩ := List.cons.inj hsplit
      exact .inr ⟨before, y, after, hrest, hP⟩
  · rintro (hP | ⟨before, y, after, rfl, hP⟩)
    · exact ⟨[], x, xs, rfl, hP⟩
    · exact ⟨x :: before, y, after, rfl, hP⟩

/-- The number at an index is that of an element with as many like it before. -/
theorem getElem?_numbersOf_eq_some_iff :
    (numbersOf p n xs)[k]? = some m ↔ ∃ before x after, xs = before ++ x :: after ∧ p x = true ∧
      before.countP p = k ∧ m = n + before.length := by
  induction xs generalizing n k with
  | nil => simp [numbersOf]
  | cons x xs ih =>
    have hnext (before : List α) : n + (x :: before).length = n + 1 + before.length := by
      rw [List.length_cons]
      omega
    rw [exists_split_cons_iff, numbersOf_cons]
    -- every element moves the numbers by one, and only one with the property moves the index
    by_cases hx : p x = true
    · rw [if_pos hx]
      cases k with
      | zero =>
        rw [List.getElem?_cons_zero, Option.some.injEq]
        constructor
        · rintro rfl
          exact .inl ⟨hx, rfl, rfl⟩
        · rintro (⟨-, -, rfl⟩ | ⟨before, _, _, -, -, hcount, -⟩)
          · rfl
          · rw [List.countP_cons_of_pos hx] at hcount
            cases hcount
      | succ k =>
        rw [List.getElem?_cons_succ, ih, or_iff_right fun h => absurd h.2.1 (Nat.succ_ne_zero k).symm]
        simp only [List.countP_cons_of_pos hx, Nat.add_right_cancel_iff, hnext]
    · rw [if_neg hx, ih, or_iff_right fun h => hx h.1]
      simp only [List.countP_cons_of_neg hx, hnext]

theorem numbersOf_congr {q : β → Bool} {xs : List α} {ys : List β}
    (h : List.Forall₂ (fun x y => q y = p x) xs ys) : numbersOf q n ys = numbersOf p n xs := by
  induction h generalizing n with
  | nil => rfl
  | cons hxy _ ih => rw [numbersOf_cons, numbersOf_cons, hxy, ih]

/-- Elements without the property have no numbers. -/
theorem numbersOf_append_of_not (h : ∀ y ∈ ys, p y = false) :
    numbersOf p n (xs ++ ys) = numbersOf p n xs := by
  induction xs generalizing n with
  | nil =>
    have hnone : (numbersOf p n ys).length = 0 := by
      rw [length_numbersOf, List.countP_eq_zero]
      exact fun y hy => by rw [h y hy]; exact Bool.false_ne_true
    exact List.length_eq_zero_iff.mp hnone
  | cons x xs ih => rw [List.cons_append, numbersOf_cons, numbersOf_cons, ih]

end Numbers

/-! ## Separators -/

/-- A line that separates documents. -/
def SeparatesDocuments (line : List Char) : Prop :=
  ∃ gap, line = '-' :: '-' :: '-' :: gap ∧ ∀ c ∈ gap, Text.isSpace c = true

theorem isSeparator_iff {line : List Char} : isSeparator line = true ↔ SeparatesDocuments line := by
  rw [isSeparator, Bool.and_eq_true, List.isPrefixOf_iff_prefix, Text.isBlank, List.all_eq_true]
  constructor
  · rintro ⟨⟨gap, rfl⟩, hgap⟩
    exact ⟨gap, rfl, hgap⟩
  · rintro ⟨gap, rfl, hgap⟩
    exact ⟨⟨gap, rfl⟩, hgap⟩

instance : DecidablePred SeparatesDocuments := fun _ => decidable_of_iff _ isSeparator_iff

theorem isSeparator_eq : isSeparator = fun line => decide (SeparatesDocuments line) := by
  funext line
  rw [Bool.eq_iff_iff, isSeparator_iff, decide_eq_true_iff]

/-- Neither a line that starts with white space nor one with a text after its dashes separates documents. -/
theorem not_separatesDocuments {line : List Char}
    (h : (∃ c ∈ line.head?, Text.isSpace c = true) ∨ ∃ c ∈ line.drop 3, Text.isSpace c = false) :
    ¬ SeparatesDocuments line := by
  rintro ⟨gap, rfl, hgap⟩
  rcases h with ⟨c, hc, hspace⟩ | ⟨c, hc, htext⟩
  · obtain rfl : '-' = c := Option.mem_some.mp hc
    exact absurd hspace (by decide)
  · exact absurd (hgap c hc) (by rw [htext]; decide)

/-- A carriage return at the end is white space like any other. -/
theorem separatesDocuments_append_return {line : List Char} :
    SeparatesDocuments (line ++ ['\r']) ↔ SeparatesDocuments line := by
  constructor
  · rintro ⟨gap, hline, hgap⟩
    match line, hline with
    | [], h | [_], h | [_, _], h => simp at h
    | _ :: _ :: _ :: rest, h =>
      simp only [List.cons_append, List.cons.injEq] at h
      obtain ⟨rfl, rfl, rfl, rfl⟩ := h
      exact ⟨rest, rfl, fun c hc => hgap c (List.mem_append_left _ hc)⟩
  · rintro ⟨gap, rfl, hgap⟩
    refine ⟨gap ++ ['\r'], rfl, fun c hc => ?_⟩
    rcases List.mem_append.mp hc with hc | hc
    · exact hgap c hc
    · obtain rfl := List.mem_singleton.mp hc
      decide

theorem isSeparator_of_isLine {line chunk : List Char} (h : Text.IsLine line chunk) :
    isSeparator chunk = isSeparator line := by
  rcases h with rfl | rfl
  · rfl
  · rw [Bool.eq_iff_iff, isSeparator_iff, isSeparator_iff, separatesDocuments_append_return]

/-- The separators of a text are found among its lines. -/
theorem separatorLines_eq (text : String) :
    separatorLines text = numbersOf isSeparator 1 (Text.lines text.toList) := by
  obtain ⟨last, hlast, hlines⟩ := Text.exists_forall₂_lines_split text.toList
  have hempty : ∀ line ∈ last, isSeparator line = false := by
    intro line hline
    rw [hlast line hline]
    rfl
  calc separatorLines text
      = numbersOf isSeparator 1 (Text.split '\n' text.toList) := rfl
    _ = numbersOf isSeparator 1 (Text.lines text.toList ++ last) :=
        numbersOf_congr (hlines.imp fun _ _ => isSeparator_of_isLine)
    _ = numbersOf isSeparator 1 (Text.lines text.toList) := numbersOf_append_of_not hempty

theorem separatorLines_withCarriageReturns (text : String) :
    separatorLines (String.ofList (Text.withCarriageReturns text.toList)) = separatorLines text := by
  have hchunks := (Text.forall₂_split_withCarriageReturns text.toList).imp fun _ _ => isSeparator_of_isLine
  calc separatorLines (String.ofList (Text.withCarriageReturns text.toList))
      = numbersOf isSeparator 1 (Text.split '\n' (Text.withCarriageReturns text.toList)) := by
        rw [separatorLines, String.toList_ofList]
        rfl
    _ = numbersOf isSeparator 1 (Text.split '\n' text.toList) := numbersOf_congr hchunks
    _ = separatorLines text := rfl

/-- White space has no dashes. -/
theorem separatorLines_of_isBlank {text : String} (h : Text.isBlank text.toList = true) :
    separatorLines text = [] := by
  have hnone : (numbersOf isSeparator 1 (Text.split '\n' text.toList)).length = 0 := by
    rw [length_numbersOf, List.countP_eq_zero]
    intro chunk hchunk hsep
    obtain ⟨gap, rfl, -⟩ := isSeparator_iff.mp hsep
    have hdash : '-' ∈ text.toList := Text.mem_of_mem_split hchunk List.mem_cons_self
    exact absurd (List.all_eq_true.mp h _ hdash) (by decide)
  exact List.length_eq_zero_iff.mp hnone

/-! ## Errors passed on -/

section

variable {α ε δ : Type} {x : Except ε α} {f : ε → δ}

theorem mapError_eq_ok_iff {a : α} : x.mapError f = .ok a ↔ x = .ok a := by
  cases x <;> simp [Except.mapError]

theorem mapError_eq_error_iff {d : δ} : x.mapError f = .error d ↔ ∃ e, x = .error e ∧ f e = d := by
  cases x <;> simp [Except.mapError]

end

/-! ## Documents that are read -/

/-- A reader whose documents repeat no key in any object. -/
def DocumentReader.KeepsKeysUnique (read : DocumentReader) : Prop :=
  ∀ text v, read text = .ok v → v.UniqueKeys

namespace Value

variable {read : DocumentReader} {text : String} {n : Nat}

/-- A text is white space, has a second separator, or is left to its reader. -/
theorem parse_cases (read : DocumentReader) (text : String) :
    Text.isBlank text.toList = true ∧ parse text read = .error .blank ∨
      (∃ n, (separatorLines text)[1]? = some n ∧ parse text read = .error (.severalDocuments n)) ∨
      (separatorLines text)[1]? = none ∧
        parse text read = (read text).mapError fun message => .malformed message := by
  rw [parse]
  split
  · next hblank => exact .inl ⟨hblank, rfl⟩
  · split
    · next first second others hlines => exact .inr (.inl ⟨second, by rw [hlines]; rfl, rfl⟩)
    · next hfew =>
      refine .inr (.inr ⟨?_, rfl⟩)
      match hlines : separatorLines text with
      | [] | [_] => rfl
      | first :: second :: others => exact absurd hlines (hfew first second others)

theorem read_of_parse {v : Value} (h : parse text read = .ok v) : read text = .ok v := by
  rcases parse_cases read text with ⟨-, hparse⟩ | ⟨n, -, hparse⟩ | ⟨-, hparse⟩ <;> rw [hparse] at h
  · cases h
  · cases h
  · exact mapError_eq_ok_iff.mp h

/-- A document that is read from a text repeats no key. -/
theorem uniqueKeys_of_parse (hread : read.KeepsKeysUnique) {v : Value}
    (h : parse text read = .ok v) : v.UniqueKeys :=
  hread text v (read_of_parse h)

/-! ## Failures -/

theorem parse_eq_severalDocuments_iff :
    parse text read = .error (.severalDocuments n) ↔ (separatorLines text)[1]? = some n := by
  rcases parse_cases read text with ⟨hblank, hparse⟩ | ⟨m, hline, hparse⟩ | ⟨hline, hparse⟩
  · -- white space has no separators, so this failure takes no other's place
    rw [hparse, separatorLines_of_isBlank hblank]
    simp
  · rw [hparse, hline]
    simp
  · rw [hparse, hline, mapError_eq_error_iff]
    simp

/-- Reading a document fails for white space, for a second separator and for what its reader says. -/
theorem eq_of_parse_eq_error {fault : ParseFault} (h : parse text read = .error fault) :
    Text.isBlank text.toList = true ∧ fault = .blank ∨ (∃ n, fault = .severalDocuments n) ∨
      ∃ message, read text = .error message ∧ fault = .malformed message := by
  rcases parse_cases read text with ⟨hblank, hparse⟩ | ⟨n, -, hparse⟩ | ⟨-, hparse⟩ <;>
    rw [hparse] at h
  · exact .inl ⟨hblank, (Except.error.inj h).symm⟩
  · exact .inr (.inl ⟨n, (Except.error.inj h).symm⟩)
  · obtain ⟨message, hread, rfl⟩ := mapError_eq_error_iff.mp h
    exact .inr (.inr ⟨message, hread, rfl⟩)

/-- A text is refused for holding several documents, and the error has the number of a line. -/
def RefusedAt (read : DocumentReader) (text : String) (line : Nat) : Prop :=
  ∃ fault, parse text read = .error fault ∧
    fault.error = ⟨.malformed, "multi-document YAML is not supported", none, some line⟩

theorem refusedAt_iff_parse :
    RefusedAt read text n ↔ parse text read = .error (.severalDocuments n) := by
  constructor
  · rintro ⟨fault, hparse, herror⟩
    rcases eq_of_parse_eq_error hparse with ⟨-, rfl⟩ | ⟨line, rfl⟩ | ⟨message, -, rfl⟩
    · cases congrArg ParseError.line? herror
    · obtain rfl : line = n := Option.some.inj (congrArg ParseError.line? herror)
      exact hparse
    · cases congrArg ParseError.line? herror
  · intro h
    exact ⟨.severalDocuments n, h, rfl⟩

theorem refusedAt_iff : RefusedAt read text n ↔ (separatorLines text)[1]? = some n :=
  refusedAt_iff_parse.trans parse_eq_severalDocuments_iff

/-- A text is refused at a line if that is a separator with exactly one before it. -/
theorem refusedAt_iff_split :
    RefusedAt read text n ↔ ∃ before line after, Text.lines text.toList = before ++ line :: after ∧
      SeparatesDocuments line ∧ before.countP (SeparatesDocuments ·) = 1 ∧ n = before.length + 1 := by
  rw [refusedAt_iff, separatorLines_eq, getElem?_numbersOf_eq_some_iff, isSeparator_eq]
  simp only [decide_eq_true_iff, Nat.add_comm 1]

theorem exists_refusedAt_iff :
    (∃ n, RefusedAt read text n) ↔
      2 ≤ (Text.lines text.toList).countP (SeparatesDocuments ·) := by
  simp only [refusedAt_iff, separatorLines_eq]
  rw [← Option.isSome_iff_exists, isSome_getElem?, length_numbersOf, isSeparator_eq]
  rfl

/-- Lines that separate no documents can be left out. -/
theorem exists_refusedAt_iff_of_not {before after : List (List Char)} {line : List Char} {rest : String}
    (hline : ¬ SeparatesDocuments line) (htext : Text.lines text.toList = before ++ line :: after)
    (hrest : Text.lines rest.toList = before ++ after) :
    (∃ n, RefusedAt read text n) ↔ ∃ n, RefusedAt read rest n := by
  rw [exists_refusedAt_iff, exists_refusedAt_iff, htext, hrest, List.countP_append, List.countP_append,
    List.countP_cons_of_neg (by simpa using hline)]

/-- A text is refused for holding several documents exactly if two of its lines separate documents, and the
error has the number of the second one, whether or not its line ends have carriage returns. Lines that start
with white space, or have a text after their first three characters, play no part in this. All other
failures are errors of the syntax without a line, and those of texts that are not blank are told in the
words of the reader. -/
theorem parse_refuses_second_separator (read : DocumentReader) (text : String) :
    ((∃ n, RefusedAt read text n) ↔
      2 ≤ (Text.lines text.toList).countP (SeparatesDocuments ·)) ∧
    (∀ n, RefusedAt read text n ↔
      ∃ before line after, Text.lines text.toList = before ++ line :: after ∧
        SeparatesDocuments line ∧ before.countP (SeparatesDocuments ·) = 1 ∧ n = before.length + 1) ∧
    (∀ n, RefusedAt read (String.ofList (Text.withCarriageReturns text.toList)) n ↔
      RefusedAt read text n) ∧
    (∀ before line after, Text.lines text.toList = before ++ line :: after →
      (∃ c ∈ line.head?, Text.isSpace c = true) ∨ (∃ c ∈ line.drop 3, Text.isSpace c = false) →
      ¬ SeparatesDocuments line ∧
      ∀ rest : String, Text.lines rest.toList = before ++ after →
        ((∃ n, RefusedAt read text n) ↔ ∃ n, RefusedAt read rest n)) ∧
    ∀ fault, parse text read = .error fault → (¬ ∃ n, RefusedAt read text n) →
      fault.error.kind = .malformed ∧ fault.error.line? = none ∧
        (Text.isBlank text.toList = false → read text = .error fault.error.message) := by
  refine ⟨exists_refusedAt_iff, fun n => refusedAt_iff_split, fun n => ?_, ?_, ?_⟩
  · rw [refusedAt_iff, refusedAt_iff, separatorLines_withCarriageReturns]
  · intro before line after htext hline
    have hnone := not_separatesDocuments hline
    exact ⟨hnone, fun rest hrest => exists_refusedAt_iff_of_not hnone htext hrest⟩
  · intro fault hparse hkept
    rcases eq_of_parse_eq_error hparse with ⟨hblank, rfl⟩ | ⟨n, rfl⟩ | ⟨message, hread, rfl⟩
    · exact ⟨rfl, rfl, fun h => absurd (h.symm.trans hblank) Bool.false_ne_true⟩
    · exact absurd ⟨n, .severalDocuments n, hparse, rfl⟩ hkept
    · exact ⟨rfl, rfl, fun _ => hread⟩

/-- Two separators, one before a carriage return and one with a tab, an indented line of dashes and one with
a text between them; and a text of one separator and a list without an end. -/
theorem refusals_of_two_documents :
    let cars := "--- \r\na: 1\n  ---\n--- b\n---\t\nc: 2"
    let list := "---\na: ["
    RefusedAt .yaml cars 5 ∧
      RefusedAt .yaml (String.ofList (Text.withCarriageReturns cars.toList)) 5 ∧
      (∃ n, RefusedAt .yaml "--- \r\na: 1\n--- b\n---\t\nc: 2" n) ∧ (¬ ∃ n, RefusedAt .yaml list n) ∧
      ∃ fault, parse list = .error fault ∧ fault.error.kind = .malformed ∧ fault.error.line? = none ∧
        DocumentReader.yaml list = .error fault.error.message := by
  intro cars list
  obtain ⟨-, hline, hreturns, hplain, -⟩ := parse_refuses_second_separator .yaml cars
  obtain ⟨hcount, -, -, -, hothers⟩ := parse_refuses_second_separator .yaml list
  have hcars : RefusedAt .yaml cars 5 :=
    (hline 5).mpr ⟨["--- ".toList, "a: 1".toList, "  ---".toList, "--- b".toList], "---\t".toList,
      ["c: 2".toList], by decide, by decide, by decide, rfl⟩
  have hkept : ¬ ∃ n, RefusedAt .yaml list n := by
    rw [hcount]
    decide
  have hlist : parse list = .error (.malformed "malformed YAML") := by
    have hnone : ofYaml? list = none := Option.isNone_iff_eq_none.mp (by decide +kernel)
    have hread : DocumentReader.yaml list = .error "malformed YAML" := by
      rw [DocumentReader.yaml, hnone]
      rfl
    have hone : separatorLines list = [1] := by decide
    rw [parse, if_neg (by decide), hone, hread]
    rfl
  obtain ⟨-, hindented⟩ := hplain ["--- ".toList, "a: 1".toList] "  ---".toList
    ["--- b".toList, "---\t".toList, "c: 2".toList] (by decide) (.inl ⟨' ', rfl, by decide⟩)
  obtain ⟨hkind, hnone, hwords⟩ := hothers _ hlist hkept
  exact ⟨hcars, (hreturns 5).mpr hcars, (hindented _ (by decide)).mp ⟨5, hcars⟩, hkept,
    _, hlist, hkind, hnone, hwords (by decide)⟩

end Value

end ForeignKey
