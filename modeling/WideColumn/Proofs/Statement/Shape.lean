import WideColumn.Proofs.Statement.Values

/-!
Statements without their values: what is left tells the table, the guard, and what each value is for.
-/
namespace WideColumn

def Relation.shape : Relation → Relation
  | compare c op _ => .compare c op .null
  | isIn c vs => .isIn c (vs.map fun _ => .null)

def Assignment.shape (a : Assignment) : Assignment := { a with value := .null }

def Insertion.shape (s : Insertion) : Insertion :=
  { s with cells := s.cells.map fun c => (c.1, .null), ttl := s.ttl.map fun _ => 0 }

def RowUpdate.shape (s : RowUpdate) : RowUpdate where
  table := s.table
  ttl := s.ttl.map fun _ => 0
  assignments := s.assignments.map Assignment.shape
  relations := s.relations.map Relation.shape
  onlyIf := s.onlyIf.map Relation.shape

def CounterMove.shape (s : CounterMove) : CounterMove :=
  { s with delta := 0, relations := s.relations.map Relation.shape }

/-- Conditions beside `IF EXISTS` are not written. -/
def RowDelete.shape (s : RowDelete) : RowDelete :=
  { s with
    relations := s.relations.map Relation.shape
    onlyIf := if s.ifExists then [] else s.onlyIf.map Relation.shape }

def Selection.shape (s : Selection) : Selection :=
  { s with relations := s.relations.map Relation.shape, limit := s.limit.map fun _ => 0 }

/-- The statement with all its values left out. -/
def Statement.shape : Statement → Statement
  | insert s => .insert s.shape
  | update s => .update s.shape
  | counter s => .counter s.shape
  | delete s => .delete s.shape
  | select s => .select s.shape

section Roles

theorem Relation.roles_shape (r : Relation) :
    r.shape.bound.map Prod.fst = r.bound.map Prod.fst := by
  cases r <;> simp [shape, bound]

private theorem roles_relations (rs : List Relation) :
    ((rs.map Relation.shape).flatMap Relation.bound).map Prod.fst =
      (rs.flatMap Relation.bound).map Prod.fst := by
  simp only [List.flatMap_map, List.map_flatMap, Relation.roles_shape]

private theorem roles_ttl (ttl : Option Int32) :
    (ttlBound (ttl.map fun _ => 0)).map Prod.fst = (ttlBound ttl).map Prod.fst := by
  cases ttl <;> rfl

/-- What the values of a statement are for does not depend on the values. -/
theorem Statement.roles_shape (s : Statement) :
    s.shape.bound.map Prod.fst = s.bound.map Prod.fst := by
  cases s with
  | insert s =>
    simp [shape, Insertion.shape, bound, Insertion.bound, roles_ttl]
  | update s =>
    simp [shape, RowUpdate.shape, bound, RowUpdate.bound, roles_ttl, roles_relations,
      Assignment.shape, Assignment.bound]
  | counter s => simp [shape, CounterMove.shape, bound, CounterMove.bound, roles_relations]
  | delete s =>
    cases h : s.ifExists <;>
      simp [shape, RowDelete.shape, bound, RowDelete.bound, roles_relations, h]
  | select s =>
    cases h : s.limit <;>
      simp [shape, Selection.shape, bound, Selection.bound, roles_relations, h]

theorem Statement.table_shape (s : Statement) : s.shape.table = s.table := by
  cases s <;> rfl

theorem Statement.guard_shape (s : Statement) : s.shape.guard = s.guard := by
  cases s with
  | insert s => rfl
  | update s => simp [shape, guard, RowUpdate.shape]
  | counter s => rfl
  | delete s => cases h : s.ifExists <;> simp [shape, guard, RowDelete.shape, h]
  | select s => rfl

end Roles

end WideColumn
