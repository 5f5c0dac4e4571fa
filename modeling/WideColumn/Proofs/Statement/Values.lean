import WideColumn.Statement.Text

/-!
What each value sent beside the text of a statement is for. The values go in the order in which the
statement lists them, and so do the markers.
-/
namespace WideColumn

/-- The use of a value in a statement. -/
inductive Role
  | timeToLive
  | cell (column : String)
  | assigned (column : String) (change : Change)
  | moved (column : String)
  | compared (column : String) (comparison : Comparison)
  | member (column : String)
  | limit
  deriving DecidableEq

def Relation.bound : Relation → List (Role × Datum)
  | compare c op v => [(.compared c op, v)]
  | isIn c vs => vs.map (.member c, ·)

def Assignment.bound (a : Assignment) : Role × Datum := (.assigned a.column a.change, a.value)

def ttlBound : Option Int32 → List (Role × Datum)
  | none => []
  | some seconds => [(.timeToLive, .int seconds)]

def Insertion.bound (s : Insertion) : List (Role × Datum) :=
  s.cells.map (fun c => (.cell c.1, c.2)) ++ ttlBound s.ttl

def RowUpdate.bound (s : RowUpdate) : List (Role × Datum) :=
  ttlBound s.ttl ++ s.assignments.map Assignment.bound ++ s.relations.flatMap Relation.bound ++
    s.onlyIf.flatMap Relation.bound

def CounterMove.bound (s : CounterMove) : List (Role × Datum) :=
  (.moved s.column, .bigint s.delta) :: s.relations.flatMap Relation.bound

def RowDelete.bound (s : RowDelete) : List (Role × Datum) :=
  s.relations.flatMap Relation.bound ++ if s.ifExists then [] else s.onlyIf.flatMap Relation.bound

def Selection.bound (s : Selection) : List (Role × Datum) :=
  s.relations.flatMap Relation.bound ++
    match s.limit with
    | none => []
    | some n => [(.limit, .int n)]

/-- The values of a statement with their uses, by its parts and not by its text. -/
def Statement.bound : Statement → List (Role × Datum)
  | insert s => s.bound
  | update s => s.bound
  | counter s => s.bound
  | delete s => s.bound
  | select s => s.bound

section Values

variable {sep keyword : String}

@[simp] theorem values_chars (cs : List Char) (ps : List Piece) :
    (Piece.chars cs :: ps).filterMap Piece.value? = ps.filterMap Piece.value? := rfl

@[simp] theorem values_word (w : String) (ps : List Piece) :
    (Piece.word w :: ps).filterMap Piece.value? = ps.filterMap Piece.value? := rfl

@[simp] theorem values_name (n : String) (ps : List Piece) :
    (Piece.name n :: ps).filterMap Piece.value? = ps.filterMap Piece.value? := rfl

@[simp] theorem values_slot (v : Datum) (ps : List Piece) :
    (Piece.slot v :: ps).filterMap Piece.value? = v :: ps.filterMap Piece.value? := rfl

@[simp] theorem values_amount (d : Int64) (ps : List Piece) :
    (Piece.amount d :: ps).filterMap Piece.value? = .bigint d :: ps.filterMap Piece.value? := rfl

theorem values_separated (parts : List (List Piece)) :
    (separated sep parts).filterMap Piece.value? = parts.flatMap (List.filterMap Piece.value?) := by
  induction parts with
  | nil => rfl
  | cons part parts ih =>
    cases parts with
    | nil => simp [separated]
    | cons q parts =>
      rw [separated, List.intercalate_cons_cons, ← separated, List.filterMap_append,
        List.filterMap_append, ih, List.flatMap_cons]
      simp

theorem values_optional (parts : List (List Piece)) :
    (optional keyword sep parts).filterMap Piece.value? =
      parts.flatMap (List.filterMap Piece.value?) := by
  rw [optional]
  split
  · rename_i h
    rw [List.isEmpty_iff.mp h]
    rfl
  · exact values_separated parts

theorem Relation.values_pieces (r : Relation) :
    r.pieces.filterMap Piece.value? = r.bound.map Prod.snd := by
  cases r with
  | compare c op v => rfl
  | isIn c vs =>
    rw [pieces, List.filterMap_append, List.filterMap_append, values_separated]
    simp [bound, Function.comp_def, List.flatMap_map]

theorem Assignment.values_pieces (a : Assignment) :
    a.pieces.filterMap Piece.value? = [a.bound.2] := by
  obtain ⟨c, change, v⟩ := a
  cases change <;> rfl

theorem values_ttlPieces (ttl : Option Int32) :
    (ttlPieces ttl).filterMap Piece.value? = (ttlBound ttl).map Prod.snd := by
  cases ttl <;> rfl

private theorem values_relations (rs : List Relation) :
    (rs.map Relation.pieces).flatMap (List.filterMap Piece.value?) =
      (rs.flatMap Relation.bound).map Prod.snd := by
  rw [List.flatMap_map, List.map_flatMap]
  simp only [Relation.values_pieces]

private theorem values_projected (c : String × Bool) :
    ∀ part ∈ projected c, part.filterMap Piece.value? = [] := by
  rw [projected]
  split <;> simp [Piece.word, Piece.name, Piece.value?]

/-- The values sent beside a text with markers, by the parts of the statement. -/
theorem Statement.values_markers (s : Statement) : s.values .markers = s.bound.map Prod.snd := by
  rw [values]
  cases s with
  | insert s =>
    have names : s.cells.flatMap (fun c => [Piece.name c.1].filterMap Piece.value?) = [] := by simp
    have slots : s.cells.flatMap (fun c => [Piece.slot c.2].filterMap Piece.value?) =
        s.cells.map Prod.snd := by simp [List.map_eq_flatMap]
    have guard : (if s.ifNotExists then [Piece.word " IF NOT EXISTS"] else []).filterMap
        Piece.value? = [] := by split <;> rfl
    simp only [pieces, Insertion.pieces, bound, Insertion.bound, List.filterMap_append,
      values_separated, List.flatMap_map, names, slots, guard, values_ttlPieces]
    simp [Function.comp_def]
  | update s =>
    have assigned : (s.assignments.map Assignment.pieces).flatMap (List.filterMap Piece.value?) =
        (s.assignments.map Assignment.bound).map Prod.snd := by
      simp only [List.flatMap_map, Assignment.values_pieces, List.map_map, ← List.map_eq_flatMap]
      rfl
    simp only [pieces, RowUpdate.pieces, bound, RowUpdate.bound, List.filterMap_append,
      values_separated, values_optional, assigned, values_relations, values_ttlPieces,
      List.map_append]
    simp
  | counter s =>
    simp only [pieces, CounterMove.pieces, bound, CounterMove.bound, List.filterMap_append,
      values_separated, values_relations]
    simp
  | delete s =>
    have guard : (if s.ifExists then [Piece.word " IF EXISTS"]
        else optional " IF " " AND " (s.onlyIf.map Relation.pieces)).filterMap Piece.value? =
        (if s.ifExists then [] else s.onlyIf.flatMap Relation.bound).map Prod.snd := by
      split
      · rfl
      · rw [values_optional, values_relations]
    simp only [pieces, RowDelete.pieces, bound, RowDelete.bound, List.filterMap_append,
      values_separated, values_relations, guard, List.map_append]
    simp
  | select s =>
    obtain ⟨table, distinct, projection, relations, limit, filtering⟩ := s
    have columns (cs : List (String × Bool)) :
        (cs.flatMap projected).flatMap (List.filterMap Piece.value?) = [] := by
      rw [List.flatMap_eq_nil_iff]
      intro part hp
      obtain ⟨c, -, hp⟩ := List.mem_flatMap.mp hp
      exact values_projected c part hp
    cases distinct <;> cases projection <;> cases limit <;> cases filtering <;>
      simp [pieces, Selection.pieces, bound, Selection.bound, values_separated, values_optional,
        values_relations, columns]

end Values
end WideColumn
