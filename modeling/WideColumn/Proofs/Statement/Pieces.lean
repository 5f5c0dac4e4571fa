import WideColumn.Proofs.Text.Scan
import WideColumn.Statement.Text

/-!
What the text of a statement is made of: words without quotes and markers, names, values and amounts.
-/
namespace WideColumn

/-- A piece as it may stand in a statement of any kind. -/
inductive Piece.Proper : Piece → Prop
  | word {w : String} : w.toList.all isInert = true → Proper (.word w)
  | name (n : String) : Proper (.name n)
  | table (t : TableId) : Proper (.chars t.cql)
  | slot (v : Datum) : Proper (.slot v)

open Piece

section Rows

variable {sep keyword : String} {parts : List (List Piece)}

theorem proper_separated (hs : sep.toList.all isInert = true)
    (h : ∀ part ∈ parts, ∀ p ∈ part, p.Proper) : ∀ p ∈ separated sep parts, p.Proper := by
  induction parts with
  | nil => simp [separated]
  | cons part parts ih =>
    obtain ⟨hp, hps⟩ := List.forall_mem_cons.mp h
    cases parts with
    | nil => simpa [separated] using hp
    | cons q parts =>
      rw [separated, List.intercalate_cons_cons, ← separated, List.append_assoc]
      simp only [List.forall_mem_append, List.forall_mem_singleton]
      exact ⟨hp, .word hs, ih hps⟩

theorem proper_optional (hk : keyword.toList.all isInert = true) (hs : sep.toList.all isInert = true)
    (h : ∀ part ∈ parts, ∀ p ∈ part, p.Proper) : ∀ p ∈ optional keyword sep parts, p.Proper := by
  rw [optional]
  split
  · simp
  · exact List.forall_mem_cons.mpr ⟨.word hk, proper_separated hs h⟩

private theorem proper_flag {w : String} (hw : w.toList.all isInert = true) (on : Bool) :
    ∀ p ∈ (if on then [Piece.word w] else []), p.Proper := by
  cases on
  · simp
  · exact List.forall_mem_singleton.mpr (.word hw)

theorem proper_ttlPieces (ttl : Option Int32) : ∀ p ∈ ttlPieces ttl, p.Proper := by
  cases ttl with
  | none => simp [ttlPieces]
  | some n =>
    simp only [ttlPieces, List.forall_mem_cons]
    exact ⟨.word (by decide), .slot _, by simp⟩

end Rows

theorem Relation.proper (r : Relation) : ∀ p ∈ r.pieces, p.Proper := by
  cases r with
  | compare c op v =>
    simp only [pieces, List.forall_mem_cons]
    exact ⟨.name c, .word (by decide), .word (by cases op <;> decide), .word (by decide), .slot v,
      by simp⟩
  | isIn c vs =>
    simp only [pieces, List.forall_mem_append, List.forall_mem_cons]
    refine ⟨⟨⟨.name c, .word (by decide), by simp⟩, proper_separated (by decide) ?_⟩,
      .word (by decide), by simp⟩
    simp [Proper.slot]

private theorem proper_relations (rs : List Relation) :
    ∀ part ∈ rs.map Relation.pieces, ∀ p ∈ part, p.Proper :=
  List.forall_mem_map.mpr fun r _ => r.proper

theorem Assignment.proper (a : Assignment) : ∀ p ∈ a.pieces, p.Proper := by
  obtain ⟨c, change, v⟩ := a
  cases change <;> simp only [pieces, List.forall_mem_cons]
  case set => exact ⟨.name c, .word (by decide), .slot v, by simp⟩
  case add =>
    exact ⟨.name c, .word (by decide), .name c, .word (by decide), .slot v, by simp⟩
  case discard =>
    exact ⟨.name c, .word (by decide), .name c, .word (by decide), .slot v, by simp⟩
  case prepend =>
    exact ⟨.name c, .word (by decide), .slot v, .word (by decide), .name c, by simp⟩

private theorem proper_projected (column : String × Bool) :
    ∀ part ∈ projected column, ∀ p ∈ part, p.Proper := by
  have whole : ∀ p ∈ [Piece.name column.1], p.Proper := List.forall_mem_singleton.mpr (.name _)
  have inside (w : String) (hw : w.toList.all isInert = true) :
      ∀ p ∈ [Piece.word w, Piece.name column.1, Piece.word ")"], p.Proper := by
    simp only [List.forall_mem_cons]
    exact ⟨.word hw, .name _, .word (by decide), by simp⟩
  refine List.forall_mem_cons.mpr ⟨whole, ?_⟩
  split
  · exact List.forall_mem_cons.mpr ⟨inside _ (by decide),
      List.forall_mem_singleton.mpr (inside _ (by decide))⟩
  · simp

theorem Insertion.proper (s : Insertion) : ∀ p ∈ s.pieces, p.Proper := by
  have names : ∀ part ∈ s.cells.map (fun c => [Piece.name c.1]), ∀ p ∈ part, p.Proper :=
    List.forall_mem_map.mpr fun c _ => List.forall_mem_singleton.mpr (.name _)
  have slots : ∀ part ∈ s.cells.map (fun c => [Piece.slot c.2]), ∀ p ∈ part, p.Proper :=
    List.forall_mem_map.mpr fun c _ => List.forall_mem_singleton.mpr (.slot _)
  simp only [pieces, List.forall_mem_append, List.forall_mem_cons]
  exact ⟨⟨⟨⟨⟨⟨⟨.word (by decide), .table _, .word (by decide), by simp⟩,
    proper_separated (by decide) names⟩, .word (by decide), by simp⟩,
    proper_separated (by decide) slots⟩, .word (by decide), by simp⟩,
    proper_flag (by decide) _⟩, proper_ttlPieces _⟩

theorem RowUpdate.proper (s : RowUpdate) : ∀ p ∈ s.pieces, p.Proper := by
  have assignments : ∀ part ∈ s.assignments.map Assignment.pieces, ∀ p ∈ part, p.Proper :=
    List.forall_mem_map.mpr fun a _ => a.proper
  simp only [pieces, List.forall_mem_append, List.forall_mem_cons]
  exact ⟨⟨⟨⟨⟨⟨⟨.word (by decide), .table _, by simp⟩, proper_ttlPieces _⟩,
    .word (by decide), by simp⟩, proper_separated (by decide) assignments⟩,
    .word (by decide), by simp⟩, proper_separated (by decide) (proper_relations _)⟩,
    proper_optional (by decide) (by decide) (proper_relations _)⟩

/-- Counter updates hold the amount too by which the counter is moved. -/
theorem CounterMove.proper (s : CounterMove) : ∀ p ∈ s.pieces, p.Proper ∨ ∃ d, p = .amount d := by
  simp only [pieces, List.forall_mem_append, List.forall_mem_cons]
  refine ⟨⟨.inl (.word (by decide)), .inl (.table _), .inl (.word (by decide)), .inl (.name _),
    .inl (.word (by decide)), .inl (.name _), .inl (.word (by decide)), .inr ⟨_, rfl⟩,
    .inl (.word (by decide)), by simp⟩, fun p hp => .inl ?_⟩
  exact proper_separated (by decide) (proper_relations _) p hp

theorem RowDelete.proper (s : RowDelete) : ∀ p ∈ s.pieces, p.Proper := by
  have guard : ∀ p ∈ (if s.ifExists then [Piece.word " IF EXISTS"]
      else optional " IF " " AND " (s.onlyIf.map Relation.pieces)), p.Proper := by
    split
    · exact List.forall_mem_singleton.mpr (.word (by decide))
    · exact proper_optional (by decide) (by decide) (proper_relations _)
  simp only [pieces, List.forall_mem_append, List.forall_mem_cons]
  exact ⟨⟨⟨.word (by decide), .table _, .word (by decide), by simp⟩,
    proper_separated (by decide) (proper_relations _)⟩, guard⟩

theorem Selection.proper (s : Selection) : ∀ p ∈ s.pieces, p.Proper := by
  obtain ⟨table, distinct, projection, relations, limit, filtering⟩ := s
  have columns (columns : List (String × Bool)) :
      ∀ p ∈ separated ", " (columns.flatMap projected), p.Proper := by
    refine proper_separated (by decide) fun part hp => ?_
    obtain ⟨column, -, hp⟩ := List.mem_flatMap.mp hp
    exact proper_projected column part hp
  simp only [pieces, List.cons_append, List.forall_mem_append, List.forall_mem_cons]
  refine ⟨.word (by decide), ⟨⟨⟨⟨proper_flag (by decide) _, ?projection⟩, .word (by decide), .table _,
    by simp⟩, proper_optional (by decide) (by decide) (proper_relations _)⟩, ?limit⟩,
    proper_flag (by decide) _⟩
  case projection =>
    cases projection with
    | none => exact List.forall_mem_singleton.mpr (.word (by decide))
    | some cs => exact columns cs
  case limit =>
    cases limit with
    | none => simp
    | some n =>
      exact List.forall_mem_cons.mpr ⟨.word (by decide), List.forall_mem_singleton.mpr (.slot _)⟩

/-- No statement has any other pieces. -/
theorem Statement.proper (s : Statement) : ∀ p ∈ s.pieces, p.Proper ∨ ∃ d, p = .amount d := by
  intro p hp
  cases s with
  | insert s => exact .inl (s.proper p hp)
  | update s => exact .inl (s.proper p hp)
  | counter s => exact s.proper p hp
  | delete s => exact .inl (s.proper p hp)
  | select s => exact .inl (s.proper p hp)

end WideColumn
