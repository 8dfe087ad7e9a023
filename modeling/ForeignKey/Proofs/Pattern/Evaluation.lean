import ForeignKey.Pattern.Evaluation

/-!
# One search behind three evaluations

Whether a value occurs, which values occur and where they stand are three recursions over the segments.
They take the same steps: a segment leads from a node to a list of children, and the rest of the segments
goes on from each of them in turn. Said once for the children, an equation for each recursion follows,
and with it their agreement.
-/

namespace ForeignKey

namespace Segment

/-- The elements of an array with the steps to them. -/
def indexed (items : List Value) : List (Step × Value) :=
  items.zipIdx.map fun (item, i) => (.index i, item)

/-- The children that a segment leads to, with the steps to them, in the order of the walk. -/
def children : Segment → Value → List (Step × Value)
  | .each, node =>
    match node.items? with
    | some items => indexed items
    | none => []
  | .key name, node =>
    match node.field? name with
    | some child => [(.key name, child)]
    | none => []

variable {v node : Value} {s : Segment} {rest segments : List Segment}

theorem map_snd_indexed (items : List Value) : (indexed items).map Prod.snd = items := by
  rw [indexed, List.map_map]
  exact List.zipIdx_map_fst 0 items

/-! ## One segment at a time -/

theorem occurs_cons :
    occurs v (s :: rest) node = (s.children node).any fun c => occurs v rest c.2 := by
  cases s with
  | key name =>
    rw [occurs, children]
    cases node.field? name <;> simp
  | each =>
    rw [occurs, children]
    cases node.items? with
    | none => rfl
    | some items =>
      calc items.any (occurs v rest)
          = ((indexed items).map Prod.snd).any (occurs v rest) := by rw [map_snd_indexed]
        _ = (indexed items).any fun c => occurs v rest c.2 := List.any_map

theorem reached_cons :
    reached (s :: rest) node = (s.children node).flatMap fun c => reached rest c.2 := by
  cases s with
  | key name =>
    rw [reached, children]
    cases node.field? name <;> simp
  | each =>
    rw [reached, children]
    cases node.items? with
    | none => rfl
    | some items =>
      calc items.flatMap (reached rest)
          = ((indexed items).map Prod.snd).flatMap (reached rest) := by rw [map_snd_indexed]
        _ = (indexed items).flatMap fun c => reached rest c.2 := List.flatMap_map ..

theorem located_cons :
    located (s :: rest) node =
      (s.children node).flatMap fun c =>
        (located rest c.2).map fun r => (r.1.under c.1, r.2) := by
  cases s with
  | key name =>
    rw [located, children]
    cases node.field? name <;> simp
  | each =>
    rw [located, children]
    cases node.items? with
    | none => rfl
    | some items =>
      show _ = (indexed items).flatMap fun c => (located rest c.2).map fun r => (r.1.under c.1, r.2)
      rw [indexed, List.flatMap_map]

/-! ## Agreement -/

/-- A value occurs exactly when one of the values reached equals it. -/
theorem occurs_eq_any_reached (v : Value) (segments : List Segment) (node : Value) :
    occurs v segments node = (reached segments node).any (·.equal v) := by
  induction segments generalizing node with
  | nil => simp [occurs, reached]
  | cons s rest ih =>
    rw [occurs_cons, reached_cons, List.any_flatMap]
    simp only [ih]

/-- Without their locations, the values located are the values reached. -/
theorem map_snd_located (segments : List Segment) (node : Value) :
    (located segments node).map Prod.snd = reached segments node := by
  induction segments generalizing node with
  | nil => rfl
  | cons s rest ih =>
    rw [located_cons, reached_cons, List.map_flatMap]
    simp only [List.map_map, ← ih]
    rfl

end Segment

namespace Pattern

theorem occurs_eq_any_collect (p : Pattern) (v document : Value) :
    p.occurs v document = (p.collect document).any (·.equal v) :=
  Segment.occurs_eq_any_reached v p.segments document

theorem map_snd_locate (p : Pattern) (document : Value) :
    (p.locate document).map Prod.snd = p.collect document :=
  Segment.map_snd_located p.segments document

end Pattern

end ForeignKey
