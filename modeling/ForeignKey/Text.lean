/-!
# Text

Texts are lists of characters where they are taken apart.

* `split` cuts a text at every occurrence of a separator, keeping empty chunks, and `join` puts chunks
  back together. They undo each other: joining a split text gives the text, and splitting joined chunks
  gives the chunks if there is at least one and none contains the separator. A text joined from two at a
  separator has the chunks of both.
* White space is what has the Unicode property White_Space. The byte order mark and the zero-width space
  do not have it.
* `contains` finds a part of a text, and with `lowered` it does so without regard to case. The lower case
  here is that of Unicode for the characters whose lower case has an ASCII letter in it: the ASCII
  capitals, the Kelvin sign and the capital I with a dot. All others stay, which is enough to look for
  ASCII text.
-/

namespace ForeignKey.Text

/-! ## Splitting and joining -/

/-- The chunks of a text between the occurrences of a separator. There is always at least one. -/
def split (sep : Char) : List Char → List (List Char)
  | [] => [[]]
  | c :: rest =>
    if c = sep then [] :: split sep rest
    else
      match split sep rest with
      | [] => [[c]]
      | chunk :: more => (c :: chunk) :: more

/-- The chunks with the separator between them. -/
def join (sep : Char) : List (List Char) → List Char
  | [] => []
  | [chunk] => chunk
  | chunk :: next :: more => chunk ++ sep :: join sep (next :: more)

@[simp] theorem split_nil (sep : Char) : split sep [] = [[]] := rfl

theorem split_ne_nil (sep : Char) (cs : List Char) : split sep cs ≠ [] := by
  cases cs with
  | nil => simp
  | cons c rest =>
    rw [split]
    split
    · simp
    · split <;> simp

theorem split_cons_sep (sep : Char) (rest : List Char) :
    split sep (sep :: rest) = [] :: split sep rest := by simp [split]

theorem not_mem_of_mem_split {sep : Char} {cs chunk : List Char} (h : chunk ∈ split sep cs) :
    sep ∉ chunk := by
  induction cs generalizing chunk with
  | nil => simp_all
  | cons c rest ih =>
    rw [split] at h
    split at h
    · rcases List.mem_cons.1 h with rfl | h
      · simp
      · exact ih h
    · next hc =>
      split at h
      · next hs => exact absurd hs (split_ne_nil sep rest)
      · next first more hs =>
        rcases List.mem_cons.1 h with rfl | h
        · have := ih (hs ▸ List.mem_cons_self)
          simp [Ne.symm hc, this]
        · exact ih (hs ▸ List.mem_cons_of_mem _ h)

theorem join_cons (sep : Char) (chunk : List Char) {more : List (List Char)} (h : more ≠ []) :
    join sep (chunk :: more) = chunk ++ sep :: join sep more := by
  cases more with
  | nil => exact absurd rfl h
  | cons next more => rfl

theorem join_eq_intercalate (sep : Char) (chunks : List (List Char)) :
    join sep chunks = [sep].intercalate chunks := by
  induction chunks with
  | nil => rfl
  | cons chunk more ih =>
    cases more with
    | nil => simp [join]
    | cons next more => rw [join, ih]; simp [List.intercalate]

theorem join_split (sep : Char) (cs : List Char) : join sep (split sep cs) = cs := by
  induction cs with
  | nil => rfl
  | cons c rest ih =>
    rw [split]
    split
    · next hc => rw [join_cons sep _ (split_ne_nil sep rest), ih, hc]; rfl
    · split
      · next hs => exact absurd hs (split_ne_nil sep rest)
      · next chunk more hs =>
        rw [hs] at ih
        cases more with
        | nil => simpa [join] using ih
        | cons next more => simpa [join] using ih

theorem split_of_not_mem {sep : Char} {chunk : List Char} (h : sep ∉ chunk) :
    split sep chunk = [chunk] := by
  induction chunk with
  | nil => rfl
  | cons c chunk ih =>
    obtain ⟨hc, hr⟩ : sep ≠ c ∧ sep ∉ chunk := by simpa using h
    rw [split, if_neg (Ne.symm hc), ih hr]

/-- A text that is joined at a separator is cut there. -/
theorem split_append_cons_sep (sep : Char) (cs rest : List Char) :
    split sep (cs ++ sep :: rest) = split sep cs ++ split sep rest := by
  induction cs with
  | nil => exact split_cons_sep sep rest
  | cons c cs ih =>
    rw [List.cons_append, split, split, ih]
    split
    · rfl
    · cases hcs : split sep cs with
      | nil => exact absurd hcs (split_ne_nil sep cs)
      | cons chunk more => rfl

theorem split_join {sep : Char} {chunks : List (List Char)} (hne : chunks ≠ [])
    (h : ∀ chunk ∈ chunks, sep ∉ chunk) : split sep (join sep chunks) = chunks := by
  induction chunks with
  | nil => exact absurd rfl hne
  | cons chunk more ih =>
    cases more with
    | nil => exact split_of_not_mem (h chunk List.mem_cons_self)
    | cons next more =>
      have hchunk : sep ∉ chunk := h chunk List.mem_cons_self
      rw [join_cons sep chunk (by simp), split_append_cons_sep, split_of_not_mem hchunk,
        ih (by simp) fun x hx => h x (List.mem_cons_of_mem _ hx)]
      rfl

/-! ## White space -/

/-- The property White_Space. -/
def isSpace (c : Char) : Bool :=
  let n := c.toNat
  (0x9 ≤ n && n ≤ 0xD) || n == 0x20 || n == 0x85 || n == 0xA0 || n == 0x1680
    || (0x2000 ≤ n && n ≤ 0x200A) || n == 0x2028 || n == 0x2029 || n == 0x202F || n == 0x205F
    || n == 0x3000

/-- A text without the white space at its end. -/
def trimEnd (cs : List Char) : List Char := (cs.reverse.dropWhile isSpace).reverse

/-- A text without the white space at its ends. -/
def trim (cs : List Char) : List Char := trimEnd (cs.dropWhile isSpace)

/-- Whether a text holds nothing but white space. -/
def isBlank (cs : List Char) : Bool := cs.all isSpace

/-! ## Searching -/

/-- Whether a text contains another one. -/
def contains (part : List Char) : List Char → Bool
  | [] => part.isEmpty
  | c :: rest => part.isPrefixOf (c :: rest) || contains part rest

/-- The lower case of a character. -/
def lowerChar (c : Char) : List Char :=
  if c = '\u212A' then ['k'] else if c = '\u0130' then ['i', '\u0307'] else [c.toLower]

/-- A text in lower case. -/
def lowered (cs : List Char) : List Char := cs.flatMap lowerChar

theorem contains_iff {part cs : List Char} : contains part cs = true ↔ part <:+: cs := by
  induction cs with
  | nil => simp [contains]
  | cons c rest ih => simp [contains, ih, List.infix_cons_iff]

end ForeignKey.Text
