import Std.Data.String.ToNat
import ForeignKey.Proofs.Lint
import ForeignKey.Proofs.Pattern.Positions

/-!
# What the text of a location tells

Keys are shown bare or after a dot, indices in brackets. Two locations that one pattern describes differ in
their indices only, and the brackets say where an index ends, so their texts differ whatever the keys hold.
Between patterns a key may look like a key with an index; where no key holds a bracket, the text of a
location can be cut back into its steps. Only `$` is shown for two locations, the document itself and its
key `$`.
-/

namespace ForeignKey

/-- Where a piece without delimiters ends can be told from the text, if a delimiter or nothing follows. -/
theorem Text.append_inj_of_delimited (ends : Char → Prop) {l l' r r' : List Char}
    (hl : ∀ c ∈ l, ¬ ends c) (hl' : ∀ c ∈ l', ¬ ends c) (hr : ∀ c ∈ r.head?, ends c)
    (hr' : ∀ c ∈ r'.head?, ends c) (h : l ++ r = l' ++ r') : l = l' ∧ r = r' := by
  induction l generalizing l' with
  | nil =>
    cases l' with
    | nil => exact ⟨rfl, h⟩
    | cons c l' =>
      have hc : ends c := hr c (by rw [show r = c :: (l' ++ r') from h]; rfl)
      exact absurd hc (hl' c List.mem_cons_self)
  | cons c l ih =>
    cases l' with
    | nil =>
      have hc : ends c := hr' c (by rw [show r' = c :: (l ++ r) from h.symm]; rfl)
      exact absurd hc (hl c List.mem_cons_self)
    | cons c' l' =>
      obtain ⟨rfl, htail⟩ := List.cons.inj h
      obtain ⟨rfl, rest⟩ := ih (List.forall_mem_cons.mp hl).2 (List.forall_mem_cons.mp hl').2 htail
      exact ⟨rfl, rest⟩

namespace Location

variable {s t : List Step} {i j : Nat} {name name' : String}

/-! ## Steps after the first one -/

theorem toList_tailText_key :
    (tailText (.key name :: s)).toList = '.' :: (name.toList ++ (tailText s).toList) := by
  rw [tailText, String.toList_append, String.toList_append, List.append_assoc]
  rfl

theorem toList_tailText_index :
    (tailText (.index i :: s)).toList = '[' :: ((toString i).toList ++ ']' :: (tailText s).toList) := by
  rw [tailText, String.toList_append, String.toList_append, String.toList_append]
  simp

theorem closingBracket_not_mem_numeral (i : Nat) : ∀ c ∈ (toString i).toList, ¬ c = ']' := by
  rintro c hc rfl
  rw [Nat.toString_eq_repr, Nat.toList_repr] at hc
  exact absurd (Nat.isDigit_of_mem_toDigits (by decide) (by decide) hc) (by decide)

/-- The closing bracket says where an index ends. -/
theorem tailText_index_inj (h : tailText (.index i :: s) = tailText (.index j :: t)) :
    i = j ∧ tailText s = tailText t := by
  have hchars := congrArg String.toList h
  rw [toList_tailText_index, toList_tailText_index] at hchars
  have hstop (rest : List Char) : ∀ c ∈ (']' :: rest).head?, c = ']' :=
    fun c hc => (Option.some.inj hc).symm
  obtain ⟨hnumeral, hrest⟩ := Text.append_inj_of_delimited (· = ']')
    (closingBracket_not_mem_numeral i) (closingBracket_not_mem_numeral j) (hstop _) (hstop _)
    (List.cons.inj hchars).2
  exact ⟨Nat.repr_injective (String.toList_injective hnumeral),
    String.toList_injective (List.cons.inj hrest).2⟩

/-- A key after the first step is shown as the first step would be, after a dot. -/
theorem tailText_key_eq : tailText (.key name :: s) = "." ++ text ⟨.key name :: s⟩ :=
  String.append_assoc

/-! ## One pattern -/

/-- Steps of the same segments have the same keys, so only indices are left to tell them apart. -/
theorem eq_of_tailText_eq_of_segments (hsegments : s.map Step.segment = t.map Step.segment)
    (h : tailText s = tailText t) : s = t := by
  induction s generalizing t with
  | nil => exact (List.map_eq_nil_iff.mp hsegments.symm).symm
  | cons a s ih =>
    cases t with
    | nil => cases hsegments
    | cons b t =>
      obtain ⟨hab, hst⟩ := List.cons.inj hsegments
      cases a with
      | key name =>
        cases b with
        | index j => cases hab
        | key name' =>
          cases hab
          rw [ih hst ((String.append_right_inj ("." ++ name)).mp h)]
      | index i =>
        cases b with
        | key name' => cases hab
        | index j =>
          obtain ⟨rfl, hrest⟩ := tailText_index_inj h
          rw [ih hst hrest]

theorem eq_of_text_eq_of_segments {l m : Location}
    (hsegments : l.steps.map Step.segment = m.steps.map Step.segment) (h : l.text = m.text) : l = m := by
  have htail : tailText l.steps = tailText m.steps := by
    match l, m with
    | ⟨[]⟩, ⟨[]⟩ => rfl
    | ⟨.key _ :: _⟩, ⟨.key _ :: _⟩ => rw [tailText_key_eq, tailText_key_eq, h]
    | ⟨.index _ :: _⟩, ⟨.index _ :: _⟩ => exact h
    | ⟨[]⟩, ⟨_ :: _⟩ | ⟨_ :: _⟩, ⟨[]⟩ => cases hsegments
    | ⟨.key _ :: _⟩, ⟨.index _ :: _⟩ | ⟨.index _ :: _⟩, ⟨.key _ :: _⟩ => cases hsegments
  exact congrArg mk (eq_of_tailText_eq_of_segments hsegments htail)

/-! ## Keys that can be cut out -/

/-- Whether a character begins a step after the first one. -/
def BeginsStep (c : Char) : Prop := c = '.' ∨ c = '['

/-- Whether each key on the way is shown as something that ends where the next step begins. -/
def Delimited (steps : List Step) : Prop :=
  ∀ name, Step.key name ∈ steps → name.toList ≠ [] ∧ ∀ c ∈ name.toList, ¬ BeginsStep c

theorem Delimited.tail {step : Step} (h : Delimited (step :: s)) : Delimited s :=
  fun name hname => h name (List.mem_cons_of_mem _ hname)

theorem exists_toList_tailText_cons (step : Step) (s : List Step) :
    ∃ c rest, BeginsStep c ∧ (tailText (step :: s)).toList = c :: rest := by
  cases step with
  | key name => exact ⟨'.', _, .inl rfl, toList_tailText_key⟩
  | index i => exact ⟨'[', _, .inr rfl, toList_tailText_index⟩

theorem tailText_cons_ne (step : Step) (s : List Step) : tailText (step :: s) ≠ tailText [] := by
  intro h
  obtain ⟨c, rest, -, hchars⟩ := exists_toList_tailText_cons step s
  rw [h] at hchars
  cases hchars

theorem head_tailText (s : List Step) : ∀ c ∈ (tailText s).toList.head?, BeginsStep c := by
  intro c hc
  cases s with
  | nil => cases hc
  | cons step s =>
    obtain ⟨d, rest, hd, hchars⟩ := exists_toList_tailText_cons step s
    rw [hchars] at hc
    rwa [← Option.some.inj hc]

/-- A key without such characters ends where the next step begins. -/
theorem text_key_inj (hname : ∀ c ∈ name.toList, ¬ BeginsStep c)
    (hname' : ∀ c ∈ name'.toList, ¬ BeginsStep c)
    (h : text ⟨.key name :: s⟩ = text ⟨.key name' :: t⟩) : name = name' ∧ tailText s = tailText t := by
  have hchars := congrArg String.toList h
  rw [text, text, String.toList_append, String.toList_append] at hchars
  obtain ⟨hkey, hrest⟩ := Text.append_inj_of_delimited BeginsStep hname hname' (head_tailText s)
    (head_tailText t) hchars
  exact ⟨String.toList_injective hkey, String.toList_injective hrest⟩

theorem tailText_key_ne_index : tailText (.key name :: s) ≠ tailText (.index i :: t) := by
  intro h
  have hchars := congrArg String.toList h
  rw [toList_tailText_key, toList_tailText_index] at hchars
  exact absurd (List.cons.inj hchars).1 (by decide)

/-- The first character of a step tells a key from an index, and the key or index is cut out next. -/
theorem eq_of_tailText_eq_of_delimited (hs : Delimited s) (ht : Delimited t)
    (h : tailText s = tailText t) : s = t := by
  induction s generalizing t with
  | nil =>
    cases t with
    | nil => rfl
    | cons b t => exact absurd h.symm (tailText_cons_ne b t)
  | cons a s ih =>
    match a, t with
    | a, [] => exact absurd h (tailText_cons_ne a s)
    | .key name, .key name' :: t =>
      rw [tailText_key_eq, tailText_key_eq, String.append_right_inj] at h
      obtain ⟨rfl, hrest⟩ := text_key_inj (hs name List.mem_cons_self).2
        (ht name' List.mem_cons_self).2 h
      rw [ih hs.tail ht.tail hrest]
    | .index i, .index j :: t =>
      obtain ⟨rfl, hrest⟩ := tailText_index_inj h
      rw [ih hs.tail ht.tail hrest]
    | .key name, .index j :: t => exact absurd h tailText_key_ne_index
    | .index i, .key name :: t => exact absurd h.symm tailText_key_ne_index

/-- A location that begins with a key is not shown as one that begins with an index. -/
theorem text_key_ne_index (hname : name.toList ≠ [] ∧ ∀ c ∈ name.toList, ¬ BeginsStep c) :
    text ⟨.key name :: s⟩ ≠ text ⟨.index i :: t⟩ := by
  intro h
  obtain ⟨c, rest, hc⟩ := List.exists_cons_of_ne_nil hname.1
  have hchars : name.toList ++ (tailText s).toList = (tailText (.index i :: t)).toList := by
    rw [← String.toList_append]
    exact congrArg String.toList h
  rw [hc, toList_tailText_index] at hchars
  refine hname.2 c ?_ (.inr (List.cons.inj hchars).1)
  rw [hc]
  exact List.mem_cons_self

theorem eq_of_text_eq_of_delimited {a b : Step} (hs : Delimited (a :: s)) (ht : Delimited (b :: t))
    (h : text ⟨a :: s⟩ = text ⟨b :: t⟩) : a :: s = b :: t := by
  have htail : tailText (a :: s) = tailText (b :: t) := by
    match a, b with
    | .key _, .key _ => rw [tailText_key_eq, tailText_key_eq, h]
    | .index _, .index _ => exact h
    | .key name, .index _ => exact absurd h (text_key_ne_index (hs name List.mem_cons_self))
    | .index _, .key name => exact absurd h.symm (text_key_ne_index (ht name List.mem_cons_self))
  exact eq_of_tailText_eq_of_delimited hs ht htail

/-- The key that is shown as the document itself. -/
def dollar : Location := ⟨[.key "$"]⟩

theorem delimited_dollar : Delimited dollar.steps := by
  intro name hname
  obtain rfl : name = "$" := Step.key.inj (List.mem_singleton.mp hname)
  refine ⟨by decide, fun c hc => ?_⟩
  obtain rfl : c = '$' := List.mem_singleton.mp hc
  rintro (h | h) <;> cases h

/-- The text of a location gives it back, but for `$`. -/
theorem text_eq_text_iff {l m : Location} (hl : Delimited l.steps) (hm : Delimited m.steps) :
    l.text = m.text ↔ l = m ∨ l = root ∧ m = dollar ∨ l = dollar ∧ m = root := by
  constructor
  · intro h
    match l, m with
    | ⟨[]⟩, ⟨[]⟩ => exact .inl rfl
    | ⟨[]⟩, ⟨_ :: _⟩ =>
      have hdollar : dollar.text = text ⟨_ :: _⟩ := h
      exact .inr (.inl ⟨rfl, congrArg mk (eq_of_text_eq_of_delimited delimited_dollar hm hdollar).symm⟩)
    | ⟨_ :: _⟩, ⟨[]⟩ =>
      have hdollar : text ⟨_ :: _⟩ = dollar.text := h
      exact .inr (.inr ⟨congrArg mk (eq_of_text_eq_of_delimited hl delimited_dollar hdollar), rfl⟩)
    | ⟨_ :: _⟩, ⟨_ :: _⟩ => exact .inl (congrArg mk (eq_of_text_eq_of_delimited hl hm h))
  · rintro (rfl | ⟨rfl, rfl⟩ | ⟨rfl, rfl⟩) <;> rfl

end Location

/-! ## Located values -/

namespace Pattern

variable {p : Pattern}

/-- Whether no key of a pattern holds a bracket. -/
def FreeOfBrackets (p : Pattern) : Prop := ∀ key ∈ p.keys, holdsBracket key = false

theorem freeOfBrackets_parse_iff {raw : String} :
    (parse raw).FreeOfBrackets ↔ ∀ f ∈ textFindings raw, f.code ≠ "W-001" := by
  constructor
  · intro h f hf hcode
    obtain ⟨key, rfl⟩ := Finding.code_eq_bracketInKey_iff.mp hcode
    obtain ⟨hkey, hholds⟩ := bracketInKey_mem_textFindings_iff.mp hf
    rw [h key hkey] at hholds
    cases hholds
  · intro h key hkey
    rw [← Bool.not_eq_true]
    intro hholds
    exact h _ (bracketInKey_mem_textFindings_iff.mpr ⟨hkey, hholds⟩) rfl

theorem delimited_of_describes {l : Location} (hp : p.FreeOfBrackets) (h : p.Describes l) :
    Location.Delimited l.steps := by
  intro name hname
  have hsegment : .key name ∈ p.segments := by
    rw [describes_iff.mp h]
    exact List.mem_map_of_mem hname
  obtain ⟨hempty, hdot, -⟩ := p.writable _ hsegment
  refine ⟨fun hnil => hempty (String.toList_eq_nil_iff.mp hnil), fun c hc => ?_⟩
  rintro (rfl | rfl)
  · exact hdot hc
  · have hfree := hp name (mem_keys_iff.mpr hsegment)
    rw [holdsBracket, List.any_eq_false] at hfree
    exact hfree _ hc (by decide)

/-- The texts of the locations that one pattern finds in a document are all different. Texts of locations
from two patterns in two documents are different as well, if the locations are and no key of the patterns
holds a bracket, but for the document itself and its key `$`. -/
theorem location_texts_identify_positions (p q : Pattern) (document other : Value) :
    ((p.locate document).map fun r => r.1.text).Nodup ∧
    (p.FreeOfBrackets → q.FreeOfBrackets →
      ∀ r ∈ p.locate document, ∀ s ∈ q.locate other,
        (r.1.text = s.1.text ↔ r.1 = s.1 ∨ r.1 = .root ∧ s.1 = ⟨[.key "$"]⟩ ∨
          r.1 = ⟨[.key "$"]⟩ ∧ s.1 = .root)) ∧
    (∀ raw, (parse raw).FreeOfBrackets ↔ ∀ f ∈ textFindings raw, f.code ≠ "W-001") := by
  refine ⟨?_, fun hp hq r hr s hs => ?_, fun raw => freeOfBrackets_parse_iff⟩
  · -- different locations, and the pattern gives both the same segments
    have hne : (p.locate document).Pairwise fun r s => r.1 ≠ s.1 :=
      List.pairwise_map.mp (p.nodup_locate document)
    refine List.pairwise_map.mpr (hne.imp_of_mem fun {r s} hr hs hrs htext => hrs ?_)
    have hsegments : r.1.steps.map Step.segment = s.1.steps.map Step.segment :=
      (describes_iff.mp (mem_locate_iff.mp hr).1).symm.trans
        (describes_iff.mp (mem_locate_iff.mp hs).1)
    exact Location.eq_of_text_eq_of_segments hsegments htext
  · exact Location.text_eq_text_iff (delimited_of_describes hp (mem_locate_iff.mp hr).1)
      (delimited_of_describes hq (mem_locate_iff.mp hs).1)

/-- A key with a bracket may be shown as a key with an index is. -/
example : Location.text ⟨[.key "cars[0]"]⟩ = Location.text ⟨[.key "cars", .index 0]⟩ := by decide

/-- The second car is not shown as the key `$` is, but the document itself is. -/
theorem location_texts_of_cars_and_dollar :
    let document : Value := .object [("cars", .array [.ofNat 7, .ofNat 8]), ("$", .null)]
    let second : Location := ⟨[.key "cars", .index 1]⟩
    let dollar : Location := ⟨[.key "$"]⟩
    (parse "cars.[]").FreeOfBrackets ∧ (parse "$").FreeOfBrackets ∧ root.FreeOfBrackets ∧
      (second, .ofNat 8) ∈ (parse "cars.[]").locate document ∧
      (dollar, .null) ∈ (parse "$").locate document ∧ (.root, document) ∈ root.locate document ∧
      ((parse "cars.[]").locate document |>.map fun r => r.1.text).Nodup ∧
      second.text ≠ dollar.text ∧ Location.root.text = dollar.text := by
  intro document second dollar
  have hcars : (parse "cars.[]").FreeOfBrackets := by
    have hkeys : (parse "cars.[]").keys = ["cars"] := by decide
    rw [FreeOfBrackets, hkeys, List.forall_mem_singleton]
    decide
  have hdollar : (parse "$").FreeOfBrackets := by
    have hkeys : (parse "$").keys = ["$"] := by decide
    rw [FreeOfBrackets, hkeys, List.forall_mem_singleton]
    decide
  have hroot : root.FreeOfBrackets := nofun
  have hsecond : (second, .ofNat 8) ∈ (parse "cars.[]").locate document := by
    have hsegments : (parse "cars.[]").segments = [.key "cars", .each] := by decide
    exact mem_locate_iff.mpr ⟨describes_iff.mpr hsegments, rfl⟩
  have hkey : (dollar, .null) ∈ (parse "$").locate document := by
    have hsegments : (parse "$").segments = [.key "$"] := by decide
    exact mem_locate_iff.mpr ⟨describes_iff.mpr hsegments, rfl⟩
  have hself : (.root, document) ∈ root.locate document := List.mem_singleton_self _
  obtain ⟨hnodup, htexts, -⟩ :=
    location_texts_identify_positions (parse "cars.[]") (parse "$") document document
  obtain ⟨-, hdollars, -⟩ := location_texts_identify_positions root (parse "$") document document
  refine ⟨hcars, hdollar, hroot, hsecond, hkey, hself, hnodup, fun htext => ?_,
    (hdollars hroot hdollar _ hself _ hkey).mpr (.inr (.inl ⟨rfl, rfl⟩))⟩
  rcases (htexts hcars hdollar _ hsecond _ hkey).mp htext with h | ⟨h, -⟩ | ⟨h, -⟩
  · exact absurd h (by decide)
  · exact absurd h (by decide)
  · exact absurd h (by decide)

end Pattern

end ForeignKey
