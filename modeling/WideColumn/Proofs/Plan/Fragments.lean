import WideColumn.Plan.Fragments
import WideColumn.Proofs.Plan.Fits
import WideColumn.Proofs.Statement.Recorded

/-!
Text that is written out value by value, against the plan. Both fail alike, and otherwise come to the same
text and the same values in the same order.
-/
namespace WideColumn

/-- With `IF EXISTS` there are no other conditions, or the deletion has been turned down. -/
theorem Deletion.onlyIf_eq_nil {d : Deletion} (checked : d.check = .ok ()) (guarded : d.ifExists = true) :
    d.onlyIf = [] := by
  rw [check, guarded] at checked
  split at checked
  · cases checked
  · split at checked
    · cases checked
    · rename_i alone
      simpa using alone

namespace Fragments

variable {α β γ δ ζ : Type} {k : Binding} {b : Binder} {before : List Datum}

/-- The fragments fail as planned, or show what is planned and record its values. -/
def Makes (x : Fragments γ) (planned : Except Error β) (shown : β → γ) (values : β → List Datum) : Prop :=
  ∀ before, x.run before = planned.map fun b => (shown b, before ++ values b)

/-- What shows is the text of the pieces, and their values are recorded. -/
abbrev MakesPieces (k : Binding) (x : Fragments (List Char)) (planned : Except Error β)
    (pieces : β → List Piece) : Prop :=
  Makes x planned (fun b => rendered k (pieces b)) fun b => recorded k (pieces b)

namespace Makes

variable {x : Fragments γ} {planned : Except Error β} {shown : β → γ} {values : β → List Datum}

/-- What comes next goes on from what has been recorded. -/
theorem step (h : Makes x planned shown values) {f : γ → Fragments δ} {g : β → Except Error ζ}
    {made : ζ → δ × List Datum} (next : ∀ b, planned = .ok b →
      (f (shown b)).run (before ++ values b) = (g b).map made) :
    (x >>= f).run before = (planned >>= g).map made := by
  rw [StateT.run_bind, h]
  cases planned with
  | error e => rfl
  | ok b => exact next b rfl

/-- What is computed without fragments. -/
theorem lift {e : Except Error α} {f : α → Fragments δ} {g : α → Except Error ζ}
    {made : ζ → δ × List Datum} (next : ∀ a, e = .ok a → (f a).run before = (g a).map made) :
    (liftM e >>= f).run before = (e >>= g).map made := by
  cases e with
  | error e => rfl
  | ok a => exact next a rfl

/-- If each member makes what is planned for it, so does the whole list. -/
theorem mapM {f : α → Fragments γ} {g : α → Except Error β}
    (each : ∀ a, Makes (f a) (g a) shown values) (l : List α) :
    Makes (l.mapM f) (l.mapM g) (List.map shown) (List.flatMap values) := by
  induction l with
  | nil =>
    intro before
    show Except.ok ([], before) = .ok ([], before ++ [])
    rw [List.append_nil]
  | cons a l ih =>
    intro before
    rw [List.mapM_cons, List.mapM_cons]
    refine (each a).step fun b _ => ih.step fun bs _ => ?_
    show Except.ok (shown b :: bs.map shown, before ++ values b ++ bs.flatMap values) = _
    rw [List.append_assoc]
    rfl

end Makes

/-- The outcomes are the same if the texts and the values are. -/
theorem ok_congr {a a' : γ} {vs vs' : List Datum} (text : a = a') (values : vs = vs') :
    (Except.ok (a, vs) : Except Error (γ × List Datum)) = .ok (a', vs') := by
  rw [text, values]

/-- Nothing is recorded. -/
theorem ok_silent (a : γ) : (Except.ok (a, before) : Except Error (γ × List Datum)) = .ok (a, before ++ []) := by
  rw [List.append_nil]

theorem run_slot (k : Binding) (v : Datum) :
    (slot k v).run before = .ok (rendered k [.slot v], before ++ recorded k [.slot v]) := by
  cases k with
  | markers => rfl
  | literals =>
    show Except.ok (v.literal, before) = .ok (v.literal ++ [], before ++ [])
    rw [List.append_nil, List.append_nil]

/-- A value in its place in a text. -/
theorem slot_makes {v : Datum} {c : β} {t : List Char → γ} {shown : β → γ} {values : β → List Datum}
    (shows : shown c = t (rendered k [.slot v])) (records : values c = recorded k [.slot v]) :
    Makes (do return t (← slot k v)) (pure c) shown values := by
  intro before
  rw [StateT.run_bind, run_slot]
  exact ok_congr shows.symm (congrArg (before ++ ·) records.symm)

/-- Values one after the other, separated by commas. -/
theorem slots_makes (k : Binding) (bind : α → Except Error Datum) (vs : List α) :
    Makes (vs.mapM fun v => do slot k (← bind v)) (vs.mapM bind)
      (List.map fun d => rendered k [.slot d]) (List.flatMap fun d => recorded k [.slot d]) := by
  refine .mapM (fun v before => ?_) vs
  cases bind v with
  | error e => rfl
  | ok d => exact run_slot k d

theorem ttl_makes (k : Binding) (ttl : Option Duration) :
    MakesPieces k (ttlClause k ttl) (ttlOption ttl) ttlPieces := by
  cases ttl with
  | none =>
    intro before
    cases k <;> exact ok_silent []
  | some span =>
    intro before
    rw [ttlClause, ttlOption]
    cases ttlSeconds span with
    | error e => rfl
    | ok seconds =>
      refine slot_makes (k := k) (c := some seconds) (v := .int seconds) ?_ ?_ before
      · rfl
      · cases k <;> rfl

theorem isIn_makes (k : Binding) (column : String) (bind : α → Except Error Datum) (vs : List α) :
    MakesPieces k (do
        let slots ← vs.mapM fun v => do slot k (← bind v)
        return Identifier.quote column ++ " IN (".toList ++ commas slots ++ [')'])
      (do return Relation.isIn column (← vs.mapM bind)) Relation.pieces := by
  refine fun before => (slots_makes k bind vs).step fun ds _ => ?_
  refine ok_congr ?_ (congrArg (before ++ ·) ?_)
  · simp only [Relation.pieces, rendered_append, rendered_separated, List.map_map]
    rfl
  · simp only [Relation.pieces, recorded_append, recorded_separated, List.flatMap_map]
    cases k <;> simp [recorded]

theorem relation_makes (k : Binding) (b : Binder) (c : Clause) :
    MakesPieces k (relation k b c) (b.relation c) Relation.pieces := by
  cases c with
  | compare column op v =>
    refine fun before => Makes.lift fun d _ => slot_makes ?_ ?_ before
    · simp [rendered, Relation.pieces, Piece.render, Piece.word, Piece.name]
    · cases k <;> rfl
  | isIn column vs =>
    rw [relation, Binder.relation]
    split
    · intro before
      rfl
    · exact isIn_makes k column (b.bind column) vs

theorem equation_makes (k : Binding) (b : Binder) (key : String × Value) :
    MakesPieces k (equation k b key) (b.keyRelation key) Relation.pieces := by
  refine fun before => Makes.lift fun d _ => slot_makes ?_ ?_ before
  · simp [rendered, Relation.pieces, Piece.render, Piece.word, Piece.name, Comparison.symbol]
  · cases k <;> rfl

theorem where_makes (k : Binding) (b : Binder) (keys : SortedMap String Value) (conditions : List Clause) :
    Makes (whereClause k b keys conditions) (b.relations keys conditions) (whereText k) (compared k) := by
  refine fun before => (Makes.mapM (equation_makes k b) keys.toList).step fun rs _ =>
    (Makes.mapM (relation_makes k b) conditions).step fun qs _ => ?_
  refine ok_congr ?_ ?_
  · show " WHERE ".toList ++ ands (rs.map _ ++ qs.map _) = _
    rw [← List.map_append]
    rfl
  · show before ++ compared k rs ++ compared k qs = before ++ compared k (rs ++ qs)
    rw [List.append_assoc, compared, compared, ← List.flatMap_append]
    rfl

theorem onlyIf_makes (k : Binding) (b : Binder) (conditions : List Clause) :
    Makes (onlyIfClause k b conditions) (conditions.mapM b.relation) (ifText k) (compared k) := by
  intro before
  rw [onlyIfClause]
  cases conditions with
  | nil => exact ok_silent []
  | cons c cs =>
    rw [List.isEmpty_cons, if_neg Bool.false_ne_true, ← bind_pure ((c :: cs).mapM b.relation)]
    refine (Makes.mapM (relation_makes k b) (c :: cs)).step fun rs planned => ?_
    have some : rs.isEmpty = false := by
      cases Outcome.forall₂_mapM planned
      rfl
    refine ok_congr ?_ rfl
    show " IF ".toList ++ ands (rs.map _) = ifText k rs
    rw [ifText, some]
    rfl

theorem rendered_assignment (k : Binding) (column : String) (change : Change) (v : Datum) :
    rendered k (Assignment.mk column change v).pieces = assigned column (rendered k [.slot v]) change := by
  cases change <;> simp [rendered, Assignment.pieces, Piece.render, Piece.word, Piece.name, assigned]

theorem recorded_assignment (k : Binding) (column : String) (change : Change) (v : Datum) :
    recorded k (Assignment.mk column change v).pieces = recorded k [.slot v] := by
  cases k <;> cases change <;> rfl

theorem columns_make (k : Binding) (change : Change) (bind : String → α → Except Error Datum)
    (columns : SortedMap String α) : Makes (assignColumns k change bind columns)
      (Write.assignEach change bind columns) (assignedTexts k) (assignedValues k) := by
  refine .mapM (fun (name, a) before => Makes.lift fun d _ => slot_makes ?_ ?_ before) _
  · exact rendered_assignment k name change d
  · exact recorded_assignment k name change d

/-- What is left out has no text and no value. -/
theorem assignedTexts_filterMap (k : Binding) (found : List (Option Assignment)) :
    (found.map (Option.map fun a => rendered k a.pieces)).filterMap id =
      assignedTexts k (found.filterMap id) := by
  rw [assignedTexts, List.filterMap_map, List.map_filterMap]
  congr 1

theorem assignedValues_filterMap (k : Binding) (found : List (Option Assignment)) :
    (found.flatMap fun a => a.elim [] fun a => recorded k a.pieces) =
      assignedValues k (found.filterMap id) := by
  induction found with
  | nil => rfl
  | cons a found ih =>
    cases a with
    | none => exact ih
    | some a => exact congrArg (recorded k a.pieces ++ ·) ih

theorem plain_makes (w : Write) (k : Binding) (b : Binder) : Makes (w.plainFragments k b)
    (w.plainAssignments b) (assignedTexts k) (assignedValues k) := by
  have each (entry : String × Value) : Makes (do
        if (← b.column entry.1).isPrimaryKey then return none
        else return some (assigned entry.1 (← slot k (← b.bind entry.1 entry.2)) .set))
      (do
        if (← b.column entry.1).isPrimaryKey then return none
        else return some (Assignment.mk entry.1 .set (← b.bind entry.1 entry.2)))
      (Option.map fun a => rendered k a.pieces) fun a => a.elim [] fun a => recorded k a.pieces := by
    refine fun before => Makes.lift fun c _ => ?_
    split
    · exact ok_silent none
    · refine Makes.lift fun d _ => slot_makes (t := fun s => some (assigned entry.1 s .set)) ?_ ?_ before
      · exact congrArg some (rendered_assignment k entry.1 .set d)
      · exact recorded_assignment k entry.1 .set d
  refine fun before => (Makes.mapM each w.values.toList).step fun found _ => ?_
  exact ok_congr (assignedTexts_filterMap k found)
    (congrArg (before ++ ·) (assignedValues_filterMap k found))

/-- A change of a map that changes nothing is left out. -/
def effective? (a : Assignment) : Option Assignment := if a.value = .map [] then none else some a

theorem effective_filterMap (as : List Assignment) :
    (as.map effective?).filterMap id = as.filter fun a => a.value ≠ .map [] := by
  induction as with
  | nil => rfl
  | cons a as ih => by_cases empty : a.value = .map [] <;> simp_all [effective?]

theorem maps_make (w : Write) (k : Binding) (b : Binder) : Makes (w.mapFragments k b)
    (w.mapAssignments b) (assignedTexts k) (assignedValues k) := by
  have each (entry : String × SortedMap Value Value) : Makes (do
        let bound ← b.bindMap entry.1 entry.2
        if bound = .map [] then return none
        else return some (assigned entry.1 (← slot k bound) .add))
      (do return Assignment.mk entry.1 .add (← b.bindMap entry.1 entry.2))
      (fun a => (effective? a).map fun a => rendered k a.pieces)
      fun a => (effective? a).elim [] fun a => recorded k a.pieces := by
    refine fun before => Makes.lift fun d _ => ?_
    by_cases empty : d = .map []
    · rw [if_pos empty]
      show Except.ok (none, before) = .ok (_, before ++ _)
      simp [effective?, empty]
    · rw [if_neg empty]
      refine slot_makes (t := fun s => some (assigned entry.1 s .add)) ?_ ?_ before
      · simp [effective?, empty, rendered_assignment]
      · simp [effective?, empty, recorded_assignment]
  refine fun before => (Makes.mapM each w.mapPuts.toList).step fun as _ => ?_
  refine ok_congr ?_ (congrArg (before ++ ·) ?_)
  · rw [← effective_filterMap, ← assignedTexts_filterMap, List.map_map]
    rfl
  · rw [← effective_filterMap, ← assignedValues_filterMap, List.flatMap_map]

theorem assignments_make (w : Write) (k : Binding) (b : Binder) : Makes (w.assignmentFragments k b)
    (w.assignments b) (assignedTexts k) (assignedValues k) := by
  refine fun before => (plain_makes w k b).step fun plain _ =>
    (columns_make k .add b.bindSet w.setAdds).step fun setAdds _ =>
    (columns_make k .discard b.bindSet w.setRemoves).step fun setRemoves _ =>
    (columns_make k .prepend b.bindList w.listPrepends).step fun prepends _ =>
    (columns_make k .add b.bindList w.listAppends).step fun appends _ =>
    (columns_make k .discard b.bindList w.listRemoves).step fun listRemoves _ =>
    (maps_make w k b).step fun puts _ => ok_congr ?_ ?_
  · simp only [assignedTexts, List.map_append]
  · simp only [assignedValues, List.flatMap_append, List.append_assoc]

theorem update_makes (w : Write) (k : Binding) (b : Binder) :
    MakesPieces k (w.updateFragments k b) (w.rowUpdate b) RowUpdate.pieces := by
  refine fun before => (ttl_makes k w.ttl).step fun ttl _ => (assignments_make w k b).step fun as _ => ?_
  have length : (assignedTexts k as).isEmpty = as.isEmpty := List.isEmpty_map
  rw [length]
  split
  · rfl
  · refine (where_makes k b w.keys w.conditions).step fun rs _ =>
      (onlyIf_makes k b w.onlyIf).step fun qs _ => ok_congr ?_ ?_
    · exact (RowUpdate.rendered_clauses k ⟨w.table, ttl, as, rs, qs⟩).symm
    · show _ = before ++ recorded k (RowUpdate.pieces ⟨w.table, ttl, as, rs, qs⟩)
      rw [RowUpdate.recorded_pieces]
      simp only [List.append_assoc]

theorem cells_make (cells : List (String × Datum)) : Makes (cells.mapM fun c => slot .markers c.2) (.ok cells)
    (List.map fun c => (Piece.slot c.2).render .markers) (List.map Prod.snd) := by
  have each (c : String × Datum) : Makes (slot .markers c.2) (pure c)
      (fun c => (Piece.slot c.2).render .markers) fun c => [c.2] := fun _ => rfl
  have all : cells.mapM (pure : _ → Except Error _) = .ok cells := by
    induction cells with
    | nil => rfl
    | cons c cells ih =>
      rw [List.mapM_cons, ih]
      rfl
  intro before
  rw [Makes.mapM each cells, all]
  exact ok_congr rfl (congrArg (before ++ ·) List.map_eq_flatMap.symm)

theorem insert_makes (w : Write) (b : Binder) :
    MakesPieces .markers (w.insertFragments b) (w.insertion b) Insertion.pieces := by
  have cells : w.insertion b = (do
      let cells ← w.cells b
      let ttl ← ttlOption w.ttl
      return ⟨w.table, cells, w.ifNotExists, ttl⟩) := by
    rw [Write.insertion, Write.cells]
    split
    · rfl
    split
    · rfl
    cases Write.bindAll b w.values with
    | error e => rfl
    | ok values =>
    cases Write.bindAll b w.keys with
    | error e => rfl
    | ok keys =>
    cases w.folded b with
    | error e => rfl
    | ok folded =>
    show (Write.addCells _ folded >>= _) = ((Write.addCells _ folded >>= _) >>= _)
    cases Write.addCells (.ofList (values ++ keys)) folded with
    | error e => rfl
    | ok cells =>
      show (if cells.isEmpty then _ else _) = ((if cells.isEmpty then _ else _) >>= _)
      split <;> rfl
  rw [cells]
  refine fun before => Makes.lift fun cells _ => ?_
  refine (cells_make cells).step (g := fun cells => do
    return Insertion.mk w.table cells w.ifNotExists (← ttlOption w.ttl)) fun _ same => ?_
  cases same
  refine (ttl_makes .markers w.ttl).step fun ttl _ => ok_congr ?_ ?_
  · show _ = rendered .markers (Insertion.pieces ⟨w.table, cells, w.ifNotExists, ttl⟩)
    rw [Insertion.rendered_pieces, List.map_map]
    rfl
  · show _ = before ++ recorded .markers (Insertion.pieces ⟨w.table, cells, w.ifNotExists, ttl⟩)
    rw [Insertion.recorded_pieces, List.append_assoc]

theorem moved_makes (k : Binding) (s : CounterMove) : Makes (moved s.column s.delta k) (.ok s)
    (CounterMove.setText k) fun s => recorded k [.amount s.delta] := by
  intro before
  cases k with
  | markers =>
    refine ok_congr ?_ rfl
    simp only [assigned, CounterMove.setText, Piece.render, List.append_assoc]
    rfl
  | literals =>
    refine ok_congr ?_ (List.append_nil before).symm
    by_cases negative : s.delta.toInt < 0
    · simp only [assigned, CounterMove.setText, Piece.render, if_pos negative, List.append_assoc]
      rfl
    · simp only [assigned, CounterMove.setText, Piece.render, if_neg negative, List.append_assoc]
      rfl

/-- What shows is the statement of the plan in its form. -/
abbrev MakesPlan (x : Fragments (List Char)) (planned : Except Error Plan) : Prop :=
  Makes x planned (fun p => rendered p.binding p.statement.pieces)
    fun p => recorded p.binding p.statement.pieces

theorem counter_makes (u : CounterUpdate) (b : Binder) : MakesPlan (u.fragments b) (u.plan b) := by
  intro before
  rw [CounterUpdate.fragments, CounterUpdate.plan]
  generalize (if u.conditions.isEmpty then Binding.markers else .literals) = k
  refine Makes.lift fun c _ => ?_
  split
  · rfl
  refine (moved_makes k ⟨u.table, u.column, u.delta, []⟩).step (g := fun s => do
    return Plan.of (.counter { s with relations := ← b.relations u.keys u.conditions }) k none)
    fun _ same => ?_
  cases same
  refine (where_makes k b u.keys u.conditions).step fun rs _ => ok_congr ?_ ?_
  · exact (CounterMove.rendered_clauses k ⟨u.table, u.column, u.delta, rs⟩).symm
  · rw [List.append_assoc]
    exact congrArg (before ++ ·) (CounterMove.recorded_pieces k ⟨u.table, u.column, u.delta, rs⟩).symm

theorem delete_makes (d : Deletion) (b : Binder) (checked : d.check = .ok ()) :
    MakesPlan (d.fragments b) (d.plan b) := by
  intro before
  rw [Deletion.fragments, Deletion.plan]
  generalize (if d.conditions.isEmpty && d.onlyIf.isEmpty && !d.ifExists then Binding.markers
    else .literals) = k
  refine (where_makes k b d.keys d.conditions).step fun rs _ => ?_
  by_cases guarded : d.ifExists = true
  · rw [if_pos guarded, Deletion.onlyIf_eq_nil checked guarded]
    refine ok_congr ?_ ?_
    · show _ = rendered k (RowDelete.pieces ⟨d.table, rs, d.ifExists, []⟩)
      rw [RowDelete.rendered_pieces, if_pos guarded]
    · show _ = before ++ recorded k (RowDelete.pieces ⟨d.table, rs, d.ifExists, []⟩)
      rw [RowDelete.recorded_pieces, if_pos guarded, List.append_nil]
  · rw [if_neg guarded]
    refine (onlyIf_makes k b d.onlyIf).step fun qs _ => ok_congr ?_ ?_
    · show _ = rendered k (RowDelete.pieces ⟨d.table, rs, d.ifExists, qs⟩)
      rw [RowDelete.rendered_pieces, if_neg guarded]
    · show _ = before ++ recorded k (RowDelete.pieces ⟨d.table, rs, d.ifExists, qs⟩)
      rw [RowDelete.recorded_pieces, if_neg guarded, List.append_assoc]

theorem write_makes (w : Write) (b : Binder) : MakesPlan (w.fragments b) (w.plan b) := by
  intro before
  rw [Write.fragments, Write.plan]
  split
  · rw [insert_makes w b before]
    cases w.insertion b <;> rfl
  · rw [update_makes w _ b before, Write.updatePlan]
    cases w.rowUpdate b <;> rfl

/-- The texts for a column of a projection. -/
theorem rendered_projected (c : String × Bool) : (projected c).map (rendered .markers) =
    Identifier.quote c.1 :: if c.2 then ["WRITETIME(".toList ++ Identifier.quote c.1 ++ [')'],
      "TTL(".toList ++ Identifier.quote c.1 ++ [')']] else [] := by
  rw [projected]
  split <;> simp [rendered, Piece.render, Piece.word, Piece.name]

/-- Columns are looked up one by one as they are written, or all of them before. -/
theorem mapM_column {look : String × Bool → PUnit → Except Error (ForInStep PUnit)} (parts : String × Bool → γ)
    (looks : ∀ c u, look c u = (do let _ ← b.column c.1; return .yield .unit)) (cs : List (String × Bool)) :
    (cs.mapM fun c => do let _ ← b.column c.1; return parts c) = (do forIn cs .unit look; return cs.map parts) := by
  induction cs with
  | nil => rfl
  | cons c cs ih =>
    rw [List.mapM_cons, List.forIn_cons, ih, looks]
    cases b.column c.1 with
    | error e => rfl
    | ok _ =>
      show ((forIn cs PUnit.unit look >>= _) >>= _) = (forIn cs PUnit.unit look >>= _)
      rw [bind_assoc]
      rfl

theorem projection_eq (r : Read) (b : Binder) :
    r.projectionFragments b = (r.projection b).map Selection.columnsText := by
  rw [Read.projectionFragments, Read.projection]
  cases r.columns with
  | none => rfl
  | some columns =>
    simp only [← rendered_projected]
    have written (m : Except Error PUnit) : (do
        let parts ← (do m; return columns.toList.map fun c => (projected c).map (rendered .markers))
        return commas parts.flatten) = (do m; return some columns.toList).map Selection.columnsText := by
      cases m with
      | error e => rfl
      | ok _ =>
        show Except.ok (commas (columns.toList.map _).flatten) = .ok (", ".toList.intercalate _)
        rw [List.map_flatMap]
        rfl
    rw [mapM_column _ fun _ _ => rfl]
    exact written _

theorem projection_makes (r : Read) (b : Binder) :
    Makes (liftM (r.projectionFragments b)) (r.projection b) Selection.columnsText fun _ => [] := by
  intro before
  rw [projection_eq]
  cases r.projection b with
  | error e => rfl
  | ok projection => exact ok_silent _

theorem key_makes (b : Binder) (key : String × List Value) :
    MakesPieces .markers (Read.keyFragments b key) (Read.keyRelation b key) Relation.pieces := by
  match key with
  | (name, []) => exact fun _ => rfl
  | (name, [v]) => exact equation_makes .markers b (name, v)
  | (name, v :: v' :: vs) => exact isIn_makes .markers name (b.bind name) (v :: v' :: vs)

theorem limit_makes (limit : Option Int32) : Makes (Read.limitClause limit) (.ok limit)
    (fun limit => limit.elim [] fun _ => " LIMIT ?".toList)
    fun limit => limit.elim [] fun n => [.int n] := by
  intro before
  cases limit with
  | none => exact ok_silent []
  | some n => rfl

theorem select_makes (r : Read) (b : Binder) :
    MakesPieces .markers (r.fragments b) (r.selection b) Selection.pieces := by
  intro before
  refine (projection_makes r b).step fun projection _ =>
    (Makes.mapM (key_makes b) r.keys.toList).step fun ks _ =>
    (Makes.mapM (relation_makes .markers b) r.conditions).step fun cs _ => Makes.lift fun limit _ => ?_
  refine (limit_makes limit).step (g := fun limit =>
    return Selection.mk r.table r.distinct projection (ks ++ cs) limit r.allowFiltering) fun _ same => ?_
  cases same
  refine ok_congr ?_ ?_
  · show _ = rendered .markers
      (Selection.pieces ⟨r.table, r.distinct, projection, ks ++ cs, limit, r.allowFiltering⟩)
    rw [Selection.rendered_pieces, ← List.map_append, List.isEmpty_map]
    rfl
  · show _ = before ++ recorded .markers
      (Selection.pieces ⟨r.table, r.distinct, projection, ks ++ cs, limit, r.allowFiltering⟩)
    rw [Selection.recorded_pieces, compared, List.flatMap_append]
    simp only [List.append_assoc, List.nil_append]

theorem read_makes (r : Read) (b : Binder) : MakesPlan (r.fragments b) (r.plan b) := by
  intro before
  rw [Read.plan, select_makes r b before]
  cases r.selection b <;> rfl

end Fragments

open Fragments

/-- Writing a statement out value by value comes to the text and the values of its plan, and fails as the
plan does. -/
theorem Specification.collect_fragments (q : Specification) (b : Binder) :
    collect (q.fragments b) = (q.plan b).map fun p => (p.text, p.values) := by
  have made : MakesPlan (q.fragments b) (q.plan b) := by
    cases q with
    | read r => exact read_makes r b
    | mutation m =>
      cases m with
      | write w => exact fun before => Makes.lift fun _ _ => write_makes w b before
      | counter u => exact fun before => Makes.lift fun _ _ => counter_makes u b before
      | delete d => exact fun before => Makes.lift fun _ checked => delete_makes d b checked before
  rw [collect, made]
  cases q.plan b with
  | error e => rfl
  | ok p =>
    show Except.ok (_, [] ++ recorded p.binding p.statement.pieces) = .ok (_, p.statement.values p.binding)
    rw [Statement.values_eq]
    rfl

end WideColumn
