import WideColumn.Statement.Text

/-!
The text of a mutation by its clauses: what it does, to which rows, and under which conditions.
-/
namespace WideColumn

open Piece (word name)

def rendered (k : Binding) (ps : List Piece) : List Char := ps.flatMap (Piece.render k)

/-- Relations that have to hold together. -/
def conjunction (k : Binding) (rs : List Relation) : List Char :=
  " AND ".toList.intercalate (rs.map fun r => rendered k r.pieces)

/-- The part of a mutation that says which rows it is for. -/
def whereText (k : Binding) (rs : List Relation) : List Char :=
  " WHERE ".toList ++ conjunction k rs

/-- The part of a mutation that says under which conditions it is applied. -/
def ifText (k : Binding) (rs : List Relation) : List Char :=
  if rs.isEmpty then [] else " IF ".toList ++ conjunction k rs

/-- An update up to its rows. -/
def RowUpdate.head (s : RowUpdate) : List Piece :=
  [word "UPDATE ", .chars s.table.cql] ++ ttlPieces s.ttl ++ [word " SET "] ++
    separated ", " (s.assignments.map Assignment.pieces)

/-- A counter update up to its rows. -/
def CounterMove.head (s : CounterMove) : List Piece :=
  [word "UPDATE ", .chars s.table.cql, word " SET ", name s.column, word " = ", name s.column,
    word " ", .amount s.delta]

variable {k : Binding}

@[simp] theorem rendered_nil : rendered k [] = [] := rfl

@[simp] theorem rendered_append (ps qs : List Piece) :
    rendered k (ps ++ qs) = rendered k ps ++ rendered k qs :=
  List.flatMap_append

@[simp] theorem rendered_cons (p : Piece) (ps : List Piece) :
    rendered k (p :: ps) = p.render k ++ rendered k ps := rfl

theorem rendered_separated (sep : String) (parts : List (List Piece)) :
    rendered k (separated sep parts) = sep.toList.intercalate (parts.map (rendered k)) := by
  induction parts with
  | nil => rfl
  | cons part parts ih =>
    cases parts with
    | nil => simp [separated]
    | cons q parts =>
      rw [separated, List.intercalate_cons_cons, ← separated, rendered_append, rendered_append, ih]
      simp [Piece.render]

private theorem rendered_relations (rs : List Relation) :
    rendered k (separated " AND " (rs.map Relation.pieces)) = conjunction k rs := by
  rw [rendered_separated, List.map_map]
  rfl

private theorem rendered_where (rs : List Relation) :
    rendered k (word " WHERE " :: separated " AND " (rs.map Relation.pieces)) = whereText k rs := by
  rw [rendered_cons, rendered_relations]
  rfl

private theorem rendered_if (rs : List Relation) :
    rendered k (optional " IF " " AND " (rs.map Relation.pieces)) = ifText k rs := by
  rw [optional, ifText, List.isEmpty_map]
  split
  · rfl
  · rw [rendered_cons, rendered_relations]
    rfl

theorem RowUpdate.rendered_pieces (s : RowUpdate) :
    rendered k s.pieces = rendered k s.head ++ whereText k s.relations ++ ifText k s.onlyIf := by
  rw [← rendered_if, ← rendered_where, ← rendered_append, ← rendered_append, pieces, head]
  simp only [List.append_assoc, List.cons_append, List.nil_append]

theorem CounterMove.rendered_pieces (s : CounterMove) :
    rendered k s.pieces = rendered k s.head ++ whereText k s.relations := by
  rw [← rendered_where, ← rendered_append]
  rfl

theorem RowDelete.rendered_pieces (s : RowDelete) :
    rendered k s.pieces = "DELETE FROM ".toList ++ s.table.cql ++ whereText k s.relations ++
      if s.ifExists then " IF EXISTS".toList else ifText k s.onlyIf := by
  have guard : rendered k (if s.ifExists then [word " IF EXISTS"]
      else optional " IF " " AND " (s.onlyIf.map Relation.pieces)) =
      if s.ifExists then " IF EXISTS".toList else ifText k s.onlyIf := by
    split
    · rfl
    · exact rendered_if s.onlyIf
  rw [← guard, ← rendered_where, pieces]
  simp [Piece.render, word]

theorem Insertion.rendered_pieces (s : Insertion) :
    rendered k s.pieces = "INSERT INTO ".toList ++ s.table.cql ++ " (".toList ++
      ", ".toList.intercalate ((s.cells.map Prod.fst).map Identifier.quote) ++ ") VALUES (".toList ++
      ", ".toList.intercalate (s.cells.map fun c => (Piece.slot c.2).render k) ++ ")".toList ++
      (if s.ifNotExists then " IF NOT EXISTS".toList else []) ++ rendered k (ttlPieces s.ttl) := by
  have guard : rendered k (if s.ifNotExists then [word " IF NOT EXISTS"] else []) =
      if s.ifNotExists then " IF NOT EXISTS".toList else [] := by split <;> rfl
  have names : (s.cells.map fun c => [name c.1]).map (rendered k) =
      (s.cells.map Prod.fst).map Identifier.quote := by
    simp [Piece.render, name]
  have values : (s.cells.map fun c => [Piece.slot c.2]).map (rendered k) =
      s.cells.map fun c => (Piece.slot c.2).render k := by
    simp
  rw [← guard, ← names, ← values, ← rendered_separated, ← rendered_separated, pieces]
  simp [Piece.render, word]

end WideColumn
