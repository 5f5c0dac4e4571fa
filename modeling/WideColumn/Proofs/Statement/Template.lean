import WideColumn.Proofs.Statement.Parts

/-!
The text of a statement with markers is that of its shape: no value has a part in it.
-/
namespace WideColumn

theorem marked_shapes {α : Type} (shape : α → α) (pieces : α → List Piece)
    (h : ∀ a, marked (pieces (shape a)) = marked (pieces a)) (separator : String) (xs : List α) :
    marked (separated separator ((xs.map shape).map pieces)) =
      marked (separated separator (xs.map pieces)) := by
  rw [marked_separated, marked_separated, List.map_map, List.map_map, List.map_map]
  exact congrArg _ (List.map_congr_left fun a _ => h a)

namespace Relation

theorem marked_shape (r : Relation) : marked r.shape.pieces = marked r.pieces := by
  cases r with
  | compare c op v => rfl
  | isIn c vs =>
    simp only [shape, pieces, marked_append,
      marked_shapes (fun _ => Datum.null) (fun v => [.slot v]) (fun _ => rfl)]

theorem marked_optional (keyword : String) (rs : List Relation) :
    marked (optional keyword " AND " ((rs.map shape).map pieces)) =
      marked (optional keyword " AND " (rs.map pieces)) := by
  have same := marked_shapes _ _ marked_shape " AND " rs
  cases rs with
  | nil => rfl
  | cons r rs => simpa [optional] using same

end Relation

theorem Assignment.marked_shape (a : Assignment) : marked a.shape.pieces = marked a.pieces := by
  obtain ⟨c, change, v⟩ := a
  cases change <;> rfl

private theorem marked_ttl (ttl : Option Int32) :
    marked (ttlPieces (ttl.map fun _ => 0)) = marked (ttlPieces ttl) := by
  cases ttl <;> rfl

theorem Statement.marked_shape (s : Statement) : marked s.shape.pieces = marked s.pieces := by
  have relations := marked_shapes _ _ Relation.marked_shape " AND "
  cases s with
  | insert s =>
    simp only [shape, Insertion.shape, pieces, Insertion.pieces, marked_append, marked_ttl,
      marked_shapes (fun c : String × Datum => (c.1, Datum.null)) (fun c => [.name c.1]) (fun _ => rfl),
      marked_shapes (fun c : String × Datum => (c.1, Datum.null)) (fun c => [.slot c.2]) (fun _ => rfl)]
  | update s =>
    simp only [shape, RowUpdate.shape, pieces, RowUpdate.pieces, marked_append, marked_ttl, relations,
      marked_shapes _ _ Assignment.marked_shape, Relation.marked_optional]
  | counter s =>
    simp only [shape, CounterMove.shape, pieces, CounterMove.pieces, marked_append, relations]
    rfl
  | delete s =>
    cases exists? : s.ifExists <;>
      simp only [shape, RowDelete.shape, pieces, RowDelete.pieces, exists?, marked_append, relations,
        Relation.marked_optional, Bool.false_eq_true, ↓reduceIte]
  | select s =>
    cases limit : s.limit <;>
      simp only [shape, Selection.shape, pieces, Selection.pieces, limit, marked_append,
        Relation.marked_optional] <;>
      rfl

/-- Statements of one shape have one text with markers. -/
theorem Statement.text_markers (s : Statement) : s.text .markers = s.shape.text .markers :=
  congrArg String.ofList s.marked_shape.symm

end WideColumn
