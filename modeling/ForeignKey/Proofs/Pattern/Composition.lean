import Mathlib.Data.List.Basic
import ForeignKey.Proofs.Pattern.Evaluation

/-!
# Patterns one after the other

Two raw texts with a dot between them are read as the one pattern followed by the other. The walk along the
longer pattern goes on from every place that the first part reaches with the second part, so it lists what
the second part lists there, place by place; whether a value occurs is asked at each of them.
-/

namespace ForeignKey

/-! ## Segments in a row -/

instance : Append Location where
  append outer inner := ⟨outer.steps ++ inner.steps⟩

theorem Location.under_append (step : Step) (outer inner : Location) :
    outer.under step ++ inner = (outer ++ inner).under step := rfl

instance : Append Pattern where
  append p q := ⟨p.segments ++ q.segments, by
    intro s hs
    rcases List.mem_append.mp hs with hs | hs
    · exact p.writable s hs
    · exact q.writable s hs⟩

theorem Pattern.segments_append (p q : Pattern) : (p ++ q).segments = p.segments ++ q.segments := rfl

/-! ## Walks in a row -/

namespace Segment

variable (segments more : List Segment) (node : Value)

theorem located_append :
    located (segments ++ more) node =
      (located segments node).flatMap fun r =>
        (located more r.2).map fun inner => (r.1 ++ inner.1, inner.2) := by
  induction segments generalizing node with
  | nil =>
    have hroot : (fun inner : Location × Value => (Location.root ++ inner.1, inner.2)) = id := rfl
    rw [List.nil_append, located, List.flatMap_singleton, hroot, List.map_id]
  | cons s rest ih =>
    rw [List.cons_append, located_cons, located_cons, List.flatMap_assoc]
    refine List.flatMap_congr fun c _ => ?_
    rw [ih c.2, List.map_flatMap, List.flatMap_map]
    simp only [List.map_map, Location.under_append]
    rfl

/-- The values are those of the places, so they follow one another as the places do. -/
theorem reached_append :
    reached (segments ++ more) node = (reached segments node).flatMap (reached more) := by
  rw [← map_snd_located, located_append, List.map_flatMap, ← map_snd_located segments, List.flatMap_map]
  refine List.flatMap_congr fun r _ => ?_
  rw [← map_snd_located more, List.map_map]
  rfl

theorem occurs_append (v : Value) :
    occurs v (segments ++ more) node = (reached segments node).any (occurs v more) := by
  rw [occurs_eq_any_reached, reached_append, List.any_flatMap]
  simp only [← occurs_eq_any_reached]

end Segment

/-! ## Patterns in a row -/

namespace Pattern

variable (p q : Pattern) (document : Value)

theorem collect_append : (p ++ q).collect document = (p.collect document).flatMap q.collect :=
  Segment.reached_append p.segments q.segments document

theorem locate_append :
    (p ++ q).locate document =
      (p.locate document).flatMap fun r =>
        (q.locate r.2).map fun inner => (r.1 ++ inner.1, inner.2) :=
  Segment.located_append p.segments q.segments document

theorem occurs_append (v : Value) :
    (p ++ q).occurs v document = (p.collect document).any fun x => q.occurs v x :=
  Segment.occurs_append p.segments q.segments document v

/-- A dot between two raw texts puts their patterns one after the other. -/
theorem parse_append_dot (a b : String) : parse (a ++ "." ++ b) = parse a ++ parse b := by
  have hchars : (a ++ "." ++ b).toList = a.toList ++ separator :: b.toList := by
    rw [String.toList_append, String.toList_append, List.append_assoc]
    rfl
  ext1
  rw [segments_append, parse_segments, parse_segments, parse_segments, chunks, hchars,
    Text.split_append_cons_sep, List.filterMap_append]
  rfl

/-- Evaluating two patterns one after the other is evaluating the second wherever the first leads: the
values, their places and the search for a value all agree on that. -/
theorem evaluation_composes (a b : String) (document v : Value) :
    (parse (a ++ "." ++ b)).segments = (parse a).segments ++ (parse b).segments ∧
    (parse (a ++ "." ++ b)).collect document =
      ((parse a).collect document).flatMap (parse b).collect ∧
    (parse (a ++ "." ++ b)).locate document =
      ((parse a).locate document).flatMap (fun outer =>
        ((parse b).locate outer.2).map fun inner =>
          (⟨outer.1.steps ++ inner.1.steps⟩, inner.2)) ∧
    ((parse (a ++ "." ++ b)).occurs v document = true ↔
      ∃ x ∈ (parse a).collect document, (parse b).occurs v x = true) := by
  rw [parse_append_dot]
  refine ⟨rfl, collect_append _ _ document, locate_append _ _ document, ?_⟩
  rw [occurs_append, List.any_eq_true]

/-- The makes of two cars, by a pattern for the cars and one for what each of them holds. -/
theorem composition_at_two_cars :
    let document : Value := .object [("cars", .array [
      .object [("makes", .array [.string "nissan", .string "ford"])],
      .object [("makes", .array [.string "fiat"])]])]
    let place (i j : Nat) : Location := ⟨[.key "cars", .index i, .key "makes", .index j]⟩
    let makes := parse ("cars.[]" ++ "." ++ "makes.[]")
    makes.locate document =
        [(place 0 0, .string "nissan"), (place 0 1, .string "ford"), (place 1 0, .string "fiat")] ∧
      makes.occurs (.string "fiat") document = true := by
  intro document place makes
  obtain ⟨-, -, hlocate, hoccurs⟩ :=
    evaluation_composes "cars.[]" "makes.[]" document (.string "fiat")
  have hcars : (parse "cars.[]").collect document =
      [.object [("makes", .array [.string "nissan", .string "ford"])],
        .object [("makes", .array [.string "fiat"])]] := by rfl
  refine ⟨?_, hoccurs.mpr ⟨.object [("makes", .array [.string "fiat"])], ?_, by decide⟩⟩
  · show (parse ("cars.[]" ++ "." ++ "makes.[]")).locate document = _
    rw [hlocate]
    rfl
  · rw [hcars]
    exact .tail _ (.head _)

end Pattern

end ForeignKey
