import WideColumn.Proofs.Statement.Clauses
import WideColumn.Proofs.Statement.Values

/-!
Statements clause by clause: their texts, and the values recorded for them.
-/
namespace WideColumn

open Piece (word)

/-- The values that are recorded for these pieces. -/
def recorded : Binding → List Piece → List Datum
  | .markers, ps => ps.filterMap Piece.value?
  | .literals, _ => []

theorem Statement.values_eq (k : Binding) (s : Statement) : s.values k = recorded k s.pieces := by
  cases k <;> rfl

section Recorded

variable {k : Binding} {sep keyword : String} {ps qs : List Piece} {parts : List (List Piece)}

theorem recorded_append : recorded k (ps ++ qs) = recorded k ps ++ recorded k qs := by
  cases k
  · exact List.filterMap_append
  · rfl

theorem recorded_separated : recorded k (separated sep parts) = parts.flatMap (recorded k) := by
  cases k
  · exact values_separated parts
  · simp [recorded]

theorem recorded_optional : recorded k (optional keyword sep parts) = parts.flatMap (recorded k) := by
  cases k
  · exact values_optional parts
  · simp [recorded]

theorem rendered_optional : rendered k (optional keyword sep parts) =
    if parts.isEmpty then [] else keyword.toList ++ sep.toList.intercalate (parts.map (rendered k)) := by
  rw [optional]
  split
  · rfl
  · rw [rendered_cons, rendered_separated]
    rfl

end Recorded

theorem Piece.render_chars (k : Binding) (cs : List Char) : (chars cs).render k = cs := rfl

theorem Piece.render_slot (v : Datum) : (slot v).render .markers = ['?'] := rfl

theorem Piece.render_word (k : Binding) (w : String) : (word w).render k = w.toList := rfl

/-- The values of relations, in order. -/
def compared (k : Binding) (rs : List Relation) : List Datum := rs.flatMap fun r => recorded k r.pieces

theorem compared_markers (rs : List Relation) :
    compared .markers rs = (rs.flatMap Relation.bound).map Prod.snd := by
  rw [List.map_flatMap]
  exact congrArg rs.flatMap (funext Relation.values_pieces)

theorem compared_literals (rs : List Relation) : compared .literals rs = [] :=
  List.flatMap_eq_nil_iff.mpr fun _ _ => rfl

/-- The texts of assignments. -/
def assignedTexts (k : Binding) (as : List Assignment) : List (List Char) :=
  as.map fun a => rendered k a.pieces

def assignedValues (k : Binding) (as : List Assignment) : List Datum := as.flatMap fun a => recorded k a.pieces

theorem RowUpdate.rendered_clauses (k : Binding) (u : RowUpdate) : rendered k u.pieces =
    "UPDATE ".toList ++ u.table.cql ++ rendered k (ttlPieces u.ttl) ++ " SET ".toList ++
      ", ".toList.intercalate (assignedTexts k u.assignments) ++ whereText k u.relations ++
      ifText k u.onlyIf := by
  have assigned : assignedTexts k u.assignments = (u.assignments.map Assignment.pieces).map (rendered k) := by
    rw [List.map_map]
    rfl
  have head : rendered k u.head = "UPDATE ".toList ++ u.table.cql ++ rendered k (ttlPieces u.ttl) ++
      " SET ".toList ++ ", ".toList.intercalate (assignedTexts k u.assignments) := by
    rw [assigned, ← rendered_separated]
    simp only [RowUpdate.head, rendered_append, rendered_cons, rendered_nil, Piece.render_word,
      Piece.render_chars, List.append_nil, List.append_assoc]
  rw [rendered_pieces, head]

theorem RowUpdate.recorded_pieces (k : Binding) (u : RowUpdate) : recorded k u.pieces =
    recorded k (ttlPieces u.ttl) ++ assignedValues k u.assignments ++ compared k u.relations ++
      compared k u.onlyIf := by
  simp only [pieces, recorded_append, recorded_separated, recorded_optional, List.flatMap_map]
  cases k <;> simp [recorded, assignedValues, compared]

theorem Insertion.recorded_pieces (s : Insertion) : recorded .markers s.pieces =
    s.cells.map Prod.snd ++ recorded .markers (ttlPieces s.ttl) := by
  show (Statement.insert s).values .markers = _ ++ (ttlPieces s.ttl).filterMap Piece.value?
  rw [Statement.values_markers, values_ttlPieces, Statement.bound, Insertion.bound, List.map_append,
    List.map_map]
  rfl

/-- What a counter's statement sets its column to. -/
def CounterMove.setText (k : Binding) (s : CounterMove) : List Char :=
  Identifier.quote s.column ++ " = ".toList ++ Identifier.quote s.column ++ [' '] ++
    Piece.render k (.amount s.delta)

theorem CounterMove.rendered_clauses (k : Binding) (s : CounterMove) : rendered k s.pieces =
    "UPDATE ".toList ++ s.table.cql ++ " SET ".toList ++ s.setText k ++ whereText k s.relations := by
  have head : rendered k s.head = "UPDATE ".toList ++ s.table.cql ++ " SET ".toList ++ s.setText k := by
    simp only [CounterMove.head, setText, rendered_cons, rendered_nil, Piece.render_word, Piece.name,
      Piece.render_chars, List.append_nil, List.append_assoc]
    rfl
  rw [rendered_pieces, head]

theorem CounterMove.recorded_pieces (k : Binding) (s : CounterMove) : recorded k s.pieces =
    recorded k [.amount s.delta] ++ compared k s.relations := by
  cases k with
  | markers =>
    show (Statement.counter s).values .markers = _
    rw [Statement.values_markers, compared_markers]
    rfl
  | literals =>
    rw [compared_literals]
    rfl

theorem RowDelete.recorded_pieces (k : Binding) (s : RowDelete) : recorded k s.pieces =
    compared k s.relations ++ if s.ifExists then [] else compared k s.onlyIf := by
  cases k with
  | markers =>
    show (Statement.delete s).values .markers = _
    rw [Statement.values_markers, compared_markers, compared_markers, Statement.bound, bound, List.map_append]
    split <;> rfl
  | literals =>
    rw [compared_literals, compared_literals, ite_self]
    rfl

/-- What is selected of a row. -/
def Selection.columnsText : Option (List (String × Bool)) → List Char
  | none => "*".toList
  | some columns => ", ".toList.intercalate ((columns.flatMap projected).map (rendered .markers))

theorem Selection.rendered_pieces (s : Selection) : rendered .markers s.pieces =
    "SELECT ".toList ++ (if s.distinct then "DISTINCT ".toList else []) ++ columnsText s.projection ++
      " FROM ".toList ++ s.table.cql ++ (if s.relations.isEmpty then [] else whereText .markers s.relations) ++
      (s.limit.elim [] fun _ => " LIMIT ".toList ++ ['?']) ++
      if s.allowFiltering then " ALLOW FILTERING".toList else [] := by
  have restriction : rendered .markers (optional " WHERE " " AND " (s.relations.map Relation.pieces)) =
      if s.relations.isEmpty then [] else whereText .markers s.relations := by
    rw [rendered_optional, List.isEmpty_map, List.map_map]
    rfl
  have distinct : rendered .markers (if s.distinct then [word "DISTINCT "] else []) =
      if s.distinct then "DISTINCT ".toList else [] := by
    split <;> rfl
  have filtering : rendered .markers (if s.allowFiltering then [word " ALLOW FILTERING"] else []) =
      if s.allowFiltering then " ALLOW FILTERING".toList else [] := by
    split <;> rfl
  obtain ⟨table, distinct, projection, relations, limit, filtering⟩ := s
  cases projection <;> cases limit <;>
    simp only [pieces, columnsText, restriction, distinct, filtering, rendered_append, rendered_cons,
      rendered_nil, rendered_separated, Piece.render_word, Piece.render_chars, Piece.render_slot,
      Option.elim, List.append_assoc, List.append_nil]

theorem Selection.recorded_pieces (s : Selection) : recorded .markers s.pieces =
    compared .markers s.relations ++ s.limit.elim [] fun n => [.int n] := by
  show (Statement.select s).values .markers = _
  rw [Statement.values_markers, compared_markers, Statement.bound, bound, List.map_append]
  cases s.limit <;> rfl

end WideColumn
