import WideColumn.Proofs.Statement.Parts

/-!
The text with markers tells all there is to a statement but its values, whatever names it has. Only
that it moves a counter, and does not add to a collection, has to be known from elsewhere.
-/
namespace WideColumn

section Clauses

variable {s t : List Char}

private theorem marked_ttl_none : marked (ttlPieces none) = [] := rfl

private theorem marked_ttl_some (n : Int32) :
    marked (ttlPieces (some n)) = " USING TTL ?".toList := rfl

private theorem ttl_ends (ttl : Option Int32) (r : List Char) :
    Stops Identifier.goesOn (marked (ttlPieces ttl) ++ (" SET ".toList ++ r)) := by
  cases ttl with
  | none => exact .append (by decide) r
  | some n => exact .append (a := " USING TTL ?".toList) (by decide) _

private theorem ttl_append_inj {a b : Option Int32}
    (h : marked (ttlPieces a) ++ (" SET ".toList ++ s) =
      marked (ttlPieces b) ++ (" SET ".toList ++ t)) :
    a.map (fun _ => (0 : Int32)) = b.map (fun _ => 0) ∧ s = t := by
  cases a <;> cases b <;> simp only [marked_ttl_none, marked_ttl_some, List.nil_append] at h
  case none.none => exact ⟨rfl, List.append_cancel_left h⟩
  case some.some => exact ⟨rfl, List.append_cancel_left (List.append_cancel_left h)⟩
  case none.some => exact (append_ne_append (by decide) _ _ h).elim
  case some.none => exact (append_ne_append (by decide) _ _ h).elim

/-- The end of an insertion: its guard and its time to live. -/
private theorem insertion_end_inj {g g' : Bool} {a b : Option Int32}
    (h : marked (if g then [.word " IF NOT EXISTS"] else []) ++ marked (ttlPieces a) =
      marked (if g' then [.word " IF NOT EXISTS"] else []) ++ marked (ttlPieces b)) :
    g = g' ∧ a.map (fun _ => (0 : Int32)) = b.map (fun _ => 0) := by
  cases g <;> cases g' <;> cases a <;> cases b <;>
    simp only [marked_ttl_none, marked_ttl_some] at h <;>
    first
      | exact ⟨rfl, rfl⟩
      | exact absurd h (by decide)

/-- The conditions at the end of an update or a deletion. -/
private theorem conditions_inj {rs qs : List Relation}
    (h : marked (optional " IF " " AND " (rs.map Relation.pieces)) =
      marked (optional " IF " " AND " (qs.map Relation.pieces))) :
    rs.map Relation.shape = qs.map Relation.shape :=
  have ends : EndsRelations [] := ⟨.nil, by decide⟩
  (optional_append_inj ends ends (by decide) (by decide) (congrArg (· ++ []) h)).1

private theorem conditions_end (rs : List Relation) :
    EndsRelations (marked (optional " IF " " AND " (rs.map Relation.pieces))) := by
  cases rs with
  | nil => exact ⟨.nil, by decide⟩
  | cons r rs =>
    obtain ⟨u, hu⟩ := marked_optional_cons " IF " r rs
    rw [hu]
    exact .append (by decide) (by decide) _

private theorem existence_ne_conditions (rs : List Relation) :
    " IF EXISTS".toList ≠ marked (optional " IF " " AND " (rs.map Relation.pieces)) := by
  cases rs with
  | nil => decide
  | cons r rs =>
    obtain ⟨u, hu⟩ := marked_optional_cons " IF " r rs
    have split : " IF EXISTS".toList = " IF ".toList ++ "EXISTS".toList := by decide
    rw [hu, split, ne_eq, List.append_cancel_left_eq]
    exact Identifier.ne_quote_append (.of_head (by decide)) _ _

/-- The end of a deletion: that the row exists, or conditions on it. -/
private def condition (ifExists : Bool) (rs : List Relation) : List Char :=
  if ifExists then " IF EXISTS".toList
  else marked (optional " IF " " AND " (rs.map Relation.pieces))

private theorem condition_inj {g g' : Bool} {rs qs : List Relation}
    (h : condition g rs = condition g' qs) :
    g = g' ∧ (if g then [] else rs.map Relation.shape) =
      if g' then [] else qs.map Relation.shape := by
  cases g <;> cases g'
  case false.false => exact ⟨rfl, conditions_inj h⟩
  case true.true => exact ⟨rfl, rfl⟩
  case true.false => exact (existence_ne_conditions _ h).elim
  case false.true => exact (existence_ne_conditions _ h.symm).elim

private theorem condition_ends (g : Bool) (rs : List Relation) :
    EndsRelations (condition g rs) := by
  cases g with
  | false => exact conditions_end rs
  | true => exact .append (w := " IF EXISTS".toList) (by decide) (by decide) []

/-- The end of a read: its limit and whether filtering is allowed. -/
private def limits (limit : Option Int32) (filtering : Bool) : List Char :=
  (if limit.isSome then " LIMIT ?".toList else []) ++
    if filtering then " ALLOW FILTERING".toList else []

private theorem limits_inj {a b : Option Int32} {f f' : Bool} (h : limits a f = limits b f') :
    a.map (fun _ => (0 : Int32)) = b.map (fun _ => 0) ∧ f = f' := by
  cases a <;> cases b <;> cases f <;> cases f' <;> simp only [limits, Option.isSome] at h <;>
    first
      | exact ⟨rfl, rfl⟩
      | exact absurd h (by decide)

private theorem limits_end (a : Option Int32) (f : Bool) :
    EndsRelations (limits a f) ∧ ¬ " WHERE ".toList <+: limits a f := by
  cases a <;> cases f <;> simp only [limits, Option.isSome] <;>
    exact ⟨⟨.of_head (by decide), by decide⟩, by decide⟩

private theorem where_ends (rs : List Relation) (a : Option Int32) (f : Bool) :
    Stops Identifier.goesOn
      (marked (optional " WHERE " " AND " (rs.map Relation.pieces)) ++ limits a f) := by
  cases rs with
  | nil => exact (limits_end a f).1.1
  | cons r rs =>
    obtain ⟨u, hu⟩ := marked_optional_cons " WHERE " r rs
    rw [hu, List.append_assoc]
    exact .append (by decide) _

end Clauses

theorem Insertion.shape_of_marked {s t : Insertion} (h : marked s.pieces = marked t.pieces) :
    s.shape = t.shape := by
  obtain ⟨table, cells, guarded, ttl⟩ := s
  obtain ⟨table', cells', guarded', ttl'⟩ := t
  have slots (cs : List (String × Datum)) : cs.map (fun c => [Piece.slot c.2]) =
      (cs.map Prod.snd).map fun v => [.slot v] := by rw [List.map_map]; rfl
  simp only [pieces, slots, marked_append, marked_word, marked_chars, marked_nil, List.append_assoc,
    List.append_cancel_left_eq, List.nil_append] at h
  obtain ⟨ht, h⟩ := TableId.cql_append_inj (.append (by decide) _) (.append (by decide) _) h
  obtain ⟨hc, h⟩ := names_append_inj (List.append_cancel_left h)
  obtain ⟨_, h⟩ := slots_append_inj h
  obtain ⟨hg, hl⟩ := insertion_end_inj h
  have cells_shape (cs : List (String × Datum)) : cs.map (fun c => (c.1, Datum.null)) =
      (cs.map Prod.fst).map (·, Datum.null) := by rw [List.map_map]; rfl
  simp only [shape, cells_shape, ht, hc, hg, hl]

theorem RowUpdate.shape_of_marked {s t : RowUpdate} (h : marked s.pieces = marked t.pieces) :
    s.shape = t.shape := by
  obtain ⟨table, ttl, assignments, relations, onlyIf⟩ := s
  obtain ⟨table', ttl', assignments', relations', onlyIf'⟩ := t
  simp only [pieces, marked_append, marked_word, marked_chars, marked_nil, List.append_assoc,
    List.append_cancel_left_eq, List.nil_append] at h
  obtain ⟨ht, h⟩ := TableId.cql_append_inj (ttl_ends ttl _) (ttl_ends ttl' _) h
  obtain ⟨hl, h⟩ := ttl_append_inj h
  obtain ⟨ha, h⟩ := assignments_append_inj h
  obtain ⟨hr, h⟩ := relations_append_inj (conditions_end onlyIf) (conditions_end onlyIf') h
  have ho := conditions_inj h
  simp only [shape, ht, hl, ha, hr, ho]

theorem RowDelete.marked_pieces (s : RowDelete) :
    marked s.pieces = "DELETE FROM ".toList ++ (s.table.cql ++ (" WHERE ".toList ++
      (marked (separated " AND " (s.relations.map Relation.pieces)) ++
        condition s.ifExists s.onlyIf))) := by
  obtain ⟨table, relations, ifExists, onlyIf⟩ := s
  cases ifExists <;> simp [pieces, condition]

theorem RowDelete.shape_of_marked {s t : RowDelete} (h : marked s.pieces = marked t.pieces) :
    s.shape = t.shape := by
  rw [marked_pieces, marked_pieces] at h
  have h := List.append_cancel_left h
  obtain ⟨ht, h⟩ := TableId.cql_append_inj (.append (by decide) _) (.append (by decide) _) h
  obtain ⟨hr, h⟩ := relations_append_inj (condition_ends s.ifExists s.onlyIf)
    (condition_ends t.ifExists t.onlyIf) (List.append_cancel_left h)
  obtain ⟨hg, ho⟩ := condition_inj h
  rw [shape, shape, ht, hr, ho, hg]

theorem Selection.marked_pieces (s : Selection) :
    marked s.pieces = "SELECT ".toList ++ ((if s.distinct then "DISTINCT ".toList else []) ++
      (projectionText s.projection ++ (" FROM ".toList ++ (s.table.cql ++
        (marked (optional " WHERE " " AND " (s.relations.map Relation.pieces)) ++
          limits s.limit s.allowFiltering))))) := by
  obtain ⟨table, distinct, projection, relations, limit, filtering⟩ := s
  have star : projectionText none = "*".toList := by decide
  cases distinct <;> cases projection <;> cases limit <;> cases filtering <;>
    simp only [pieces, star, limits, marked_append, marked_word, marked_chars, marked_nil,
      marked_slot, marked_projected, Option.isSome, Bool.false_eq_true, ↓reduceIte,
      List.append_assoc, List.cons_append, List.nil_append, List.append_nil] <;>
    rfl

private theorem distinct_append_inj {d e : Bool} {p q : Option (List (String × Bool))}
    {s t : List Char}
    (h : (if d then "DISTINCT ".toList else []) ++ (projectionText p ++ (" FROM ".toList ++ s)) =
      (if e then "DISTINCT ".toList else []) ++ (projectionText q ++ (" FROM ".toList ++ t))) :
    d = e ∧ projectionText p ++ (" FROM ".toList ++ s) =
      projectionText q ++ (" FROM ".toList ++ t) := by
  cases d <;> cases e
  case false.false => exact ⟨rfl, h⟩
  case true.true => exact ⟨rfl, List.append_cancel_left h⟩
  case true.false => exact (distinct_ne_projection _ h).elim
  case false.true => exact (distinct_ne_projection _ h.symm).elim

theorem Selection.shape_of_marked {s t : Selection} (h : marked s.pieces = marked t.pieces) :
    s.shape = t.shape := by
  rw [marked_pieces, marked_pieces] at h
  have h := List.append_cancel_left h
  obtain ⟨hd, h⟩ := distinct_append_inj h
  obtain ⟨hp, h⟩ := projection_append_inj h
  obtain ⟨ht, h⟩ := TableId.cql_append_inj (where_ends s.relations s.limit s.allowFiltering)
    (where_ends t.relations t.limit t.allowFiltering) h
  have ends := limits_end s.limit s.allowFiltering
  have ends' := limits_end t.limit t.allowFiltering
  obtain ⟨hr, h⟩ := optional_append_inj ends.1 ends'.1 ends.2 ends'.2 h
  obtain ⟨hl, hf⟩ := limits_inj h
  simp only [shape, hd, hp, ht, hr, hl, hf]

/-- A move of a counter as the update that has the same text. -/
def CounterMove.asUpdate (s : CounterMove) : RowUpdate :=
  ⟨s.table, none, [⟨s.column, .add, .bigint s.delta⟩], s.relations, []⟩

theorem CounterMove.marked_asUpdate (s : CounterMove) :
    marked s.asUpdate.pieces = marked s.pieces := by
  simp only [asUpdate, pieces, RowUpdate.pieces, ttlPieces, optional, separated, Assignment.pieces,
    List.map_cons, List.map_nil, List.intercalate_singleton, List.isEmpty_nil, ↓reduceIte,
    marked_word, marked_chars, marked_name, marked_slot, marked_amount, List.cons_append,
    List.nil_append, List.append_nil]
  rfl

theorem CounterMove.shape_of_asUpdate {s t : CounterMove}
    (h : s.asUpdate.shape = t.asUpdate.shape) : s.shape = t.shape := by
  simp only [asUpdate, RowUpdate.shape, Assignment.shape, List.map_cons, List.map_nil,
    RowUpdate.mk.injEq, List.cons.injEq, Assignment.mk.injEq] at h
  obtain ⟨ht, -, ⟨⟨hc, -⟩, -⟩, hr, -⟩ := h
  simp only [shape, ht, hc, hr]

def StatementKind.verb : StatementKind → List Char
  | insert => "INSERT ".toList
  | update | counter => "UPDATE ".toList
  | delete => "DELETE ".toList
  | select => "SELECT ".toList

namespace Statement

variable {s t : Statement}

theorem marked_verb (s : Statement) : ∃ r, marked s.pieces = s.kind.verb ++ r := by
  have into : "INSERT INTO ".toList = "INSERT ".toList ++ "INTO ".toList := by decide
  have source : "DELETE FROM ".toList = "DELETE ".toList ++ "FROM ".toList := by decide
  cases s with
  | insert s =>
    simp only [pieces, Insertion.pieces, marked_append, marked_word, into, List.append_assoc]
    exact ⟨_, rfl⟩
  | update s =>
    simp only [pieces, RowUpdate.pieces, marked_append, marked_word, List.append_assoc]
    exact ⟨_, rfl⟩
  | counter s =>
    simp only [pieces, CounterMove.pieces, marked_append, marked_word, List.append_assoc]
    exact ⟨_, rfl⟩
  | delete s =>
    simp only [pieces, RowDelete.marked_pieces, source, List.append_assoc]
    exact ⟨_, rfl⟩
  | select s =>
    simp only [pieces, Selection.marked_pieces]
    exact ⟨_, rfl⟩

theorem kind_of_marked (h : marked s.pieces = marked t.pieces) :
    s.kind = t.kind ∨ (s.kind = .counter ∧ t.kind = .update) ∨
      (s.kind = .update ∧ t.kind = .counter) := by
  obtain ⟨r, hr⟩ := s.marked_verb
  obtain ⟨u, hu⟩ := t.marked_verb
  rw [hr, hu] at h
  generalize s.kind = k at h ⊢
  generalize t.kind = l at h ⊢
  have hv := (List.append_inj h (by cases k <;> cases l <;> decide)).1
  revert hv
  cases k <;> cases l <;> decide

/-- Statements of one kind with the same text with markers differ only in their values. -/
theorem shape_of_marked (h : marked s.pieces = marked t.pieces) (hk : s.kind = t.kind) :
    s.shape = t.shape := by
  cases s <;> cases t
  case insert.insert s t => rw [shape, shape, Insertion.shape_of_marked (s := s) (t := t) h]
  case update.update s t => rw [shape, shape, RowUpdate.shape_of_marked (s := s) (t := t) h]
  case delete.delete s t => rw [shape, shape, RowDelete.shape_of_marked (s := s) (t := t) h]
  case select.select s t => rw [shape, shape, Selection.shape_of_marked (s := s) (t := t) h]
  case counter.counter s t =>
    have h := RowUpdate.shape_of_marked (s.marked_asUpdate.trans (h.trans t.marked_asUpdate.symm))
    rw [shape, shape, CounterMove.shape_of_asUpdate h]
  all_goals cases hk

/-- An update with the text of a statement that moves a counter adds to that very column. -/
theorem adds_of_marked {s : CounterMove} {t : RowUpdate}
    (h : marked s.pieces = marked t.pieces) :
    s.table = t.table ∧ ∃ v, ⟨s.column, .add, v⟩ ∈ t.assignments := by
  have h := RowUpdate.shape_of_marked (s.marked_asUpdate.trans h)
  have ha : [⟨s.column, .add, .null⟩] = t.assignments.map Assignment.shape :=
    congrArg RowUpdate.assignments h
  obtain ⟨a, hm, he⟩ : ∃ a ∈ t.assignments, a.shape = ⟨s.column, .add, .null⟩ :=
    List.mem_map.mp (ha ▸ List.mem_singleton_self _)
  obtain ⟨c, op, v⟩ := a
  simp only [Assignment.shape, Assignment.mk.injEq] at he
  obtain ⟨rfl, rfl, -⟩ := he
  exact ⟨congrArg RowUpdate.table h, v, hm⟩

end Statement

end WideColumn
