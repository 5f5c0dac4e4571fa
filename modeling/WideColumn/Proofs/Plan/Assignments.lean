import WideColumn.Proofs.Datum.Blank
import WideColumn.Proofs.Plan.Insertion
import WideColumn.Proofs.Statement.Shape

/-!
Where the assignments of an update come from: plain values outside of the primary key, and the
modifications of collections.
-/
namespace WideColumn.Write

open Outcome

variable {w : Write} {b : Binder} {as : List Assignment} {a : Assignment}

/-- The write asks for the assignment. -/
inductive Assigns (w : Write) (b : Binder) : Assignment → Prop
  | plain {n : String} {c : Column} {x : Value} {d : Datum} (column : b.column n = .ok c)
      (regular : c.isPrimaryKey = false) (given : w.values.get? n = some x) (bound : b.bind n x = .ok d) :
      Assigns w b ⟨n, .set, d⟩
  | setAdd {n : String} {vs : SortedSet Value} {d : Datum} (given : w.setAdds.get? n = some vs)
      (bound : b.bindSet n vs = .ok d) : Assigns w b ⟨n, .add, d⟩
  | setRemove {n : String} {vs : SortedSet Value} {d : Datum} (given : w.setRemoves.get? n = some vs)
      (bound : b.bindSet n vs = .ok d) : Assigns w b ⟨n, .discard, d⟩
  | listPrepend {n : String} {vs : List Value} {d : Datum} (given : w.listPrepends.get? n = some vs)
      (bound : b.bindList n vs = .ok d) : Assigns w b ⟨n, .prepend, d⟩
  | listAppend {n : String} {vs : List Value} {d : Datum} (given : w.listAppends.get? n = some vs)
      (bound : b.bindList n vs = .ok d) : Assigns w b ⟨n, .add, d⟩
  | listRemove {n : String} {vs : List Value} {d : Datum} (given : w.listRemoves.get? n = some vs)
      (bound : b.bindList n vs = .ok d) : Assigns w b ⟨n, .discard, d⟩
  | mapPut {n : String} {es : SortedMap Value Value} {d : Datum} (given : w.mapPuts.get? n = some es)
      (bound : b.bindMap n es = .ok d) (kept : d ≠ .map []) : Assigns w b ⟨n, .add, d⟩

section Each

variable {α : Type} {change : Change} {bind : String → α → Except Error Datum}
  {columns : SortedMap String α}

/-- Assignments of one kind are the cells that the same binding makes. -/
theorem assignEach_eq_ok : assignEach change bind columns = .ok as ↔
    ∃ cells, bindEach bind columns.toList = .ok cells ∧ as = cells.map fun c => ⟨c.1, change, c.2⟩ := by
  have each (e : String × α) (a : Assignment) :
      (return ⟨e.1, change, ← bind e.1 e.2⟩ : Except Error Assignment) = .ok a ↔
        a.change = change ∧ a.column = e.1 ∧ bind e.1 e.2 = .ok a.value := by
    obtain ⟨n, op, d⟩ := a
    simp only [bind_eq_ok, pure_eq_ok, Assignment.mk.injEq]
    constructor
    · rintro ⟨d, hd, rfl, rfl, rfl⟩
      exact ⟨rfl, rfl, hd⟩
    · rintro ⟨rfl, rfl, hd⟩
      exact ⟨d, hd, rfl, rfl, rfl⟩
  constructor
  · intro h
    have results := (forall₂_mapM h).imp fun e a => (each e a).mp
    refine ⟨as.map fun a => (a.column, a.value), bindEach_eq_ok.mpr (List.forall₂_map_right_iff.mpr
      (results.imp fun e a made => made.2)), ?_⟩
    rw [List.map_map]
    refine (List.map_id as).symm.trans (List.map_congr_left fun a ha => ?_)
    obtain ⟨e, -, he⟩ := of_mem_mapM h ha
    obtain ⟨rfl, -⟩ := (each e a).mp he
    rfl
  · rintro ⟨cells, bound, rfl⟩
    exact mapM_of_forall₂ (List.forall₂_map_right_iff.mpr
      ((bindEach_eq_ok.mp bound).imp fun e c made => (each e _).mpr ⟨rfl, made⟩))

theorem mem_assignEach (h : assignEach change bind columns = .ok as) :
    a ∈ as ↔ ∃ n x d, columns.get? n = some x ∧ bind n x = .ok d ∧ a = ⟨n, change, d⟩ := by
  obtain ⟨cells, bound, rfl⟩ := assignEach_eq_ok.mp h
  simp only [List.mem_map, Prod.exists, mem_bindEach_toList bound]
  constructor
  · rintro ⟨n, d, ⟨x, given, hd⟩, rfl⟩
    exact ⟨n, x, d, given, hd, rfl⟩
  · rintro ⟨n, x, d, given, hd, rfl⟩
    exact ⟨n, d, ⟨x, given, hd⟩, rfl⟩

/-- Whatever is given for a column has been bound. -/
theorem assignEach_bound (h : assignEach change bind columns = .ok as) {n : String} {x : α}
    (given : columns.get? n = some x) : ∃ d, bind n x = .ok d := by
  obtain ⟨cells, bound, -⟩ := assignEach_eq_ok.mp h
  exact bound_of_get? bound given

end Each

/-- One plain value: nothing comes of it if it is for a column of the primary key, which is not bound
then. -/
private theorem plain_eq_ok {n : String} {x : Value} {o : Option Assignment} :
    (do
      if (← b.column n).isPrimaryKey then return none
      else return some (Assignment.mk n .set (← b.bind n x))) = Except.ok o ↔
    ∃ c, b.column n = .ok c ∧ (c.isPrimaryKey = true ∧ none = o ∨
      c.isPrimaryKey = false ∧ ∃ d, b.bind n x = .ok d ∧ some ⟨n, .set, d⟩ = o) := by
  rw [bind_eq_ok]
  refine exists_congr fun c => and_congr_right' ?_
  cases c.isPrimaryKey <;> simp [bind_eq_ok, pure_eq_ok, -bind_pure_comp]

theorem mem_plainAssignments (h : w.plainAssignments b = .ok as) : a ∈ as ↔
    ∃ n c x d, b.column n = .ok c ∧ c.isPrimaryKey = false ∧ w.values.get? n = some x ∧
      b.bind n x = .ok d ∧ a = ⟨n, .set, d⟩ := by
  simp only [plainAssignments, bind_eq_ok (α := List (Option Assignment)), pure_eq_ok] at h
  obtain ⟨found, hf, rfl⟩ := h
  simp only [List.mem_filterMap, id_eq, exists_eq_right, mem_mapM_iff hf, Prod.exists, plain_eq_ok,
    SortedMap.mem_toList, reduceCtorEq, and_false, false_or, Option.some.injEq]
  constructor
  · rintro ⟨n, x, given, c, hc, regular, d, hd, rfl⟩
    exact ⟨n, c, x, d, hc, regular, given, hd, rfl⟩
  · rintro ⟨n, c, x, d, hc, regular, given, hd, rfl⟩
    exact ⟨n, x, given, c, hc, regular, d, hd, rfl⟩

/-- A plain value is bound, unless it is for a column of the primary key. -/
theorem plainAssignments_bound (h : w.plainAssignments b = .ok as) {n : String} {x : Value}
    (given : w.values.get? n = some x) :
    ∃ c, b.column n = .ok c ∧ (c.isPrimaryKey = true ∨ ∃ d, b.bind n x = .ok d) := by
  simp only [plainAssignments, bind_eq_ok (α := List (Option Assignment)), pure_eq_ok] at h
  obtain ⟨found, hf, -⟩ := h
  obtain ⟨o, -, ho⟩ := exists_of_mapM hf (SortedMap.mem_toList (e := (n, x)).mpr given)
  obtain ⟨c, hc, ⟨key, -⟩ | ⟨-, d, hd, -⟩⟩ := plain_eq_ok.mp ho
  · exact ⟨c, hc, .inl key⟩
  · exact ⟨c, hc, .inr ⟨d, hd⟩⟩

/-- Without their values the assignments of one kind are told by the columns. -/
theorem assignEach_shape {α : Type} {change : Change} {bind : String → α → Except Error Datum}
    {columns : SortedMap String α} (h : assignEach change bind columns = .ok as) :
    as.map Assignment.shape = columns.keys.map fun n => ⟨n, change, .null⟩ := by
  obtain ⟨cells, bound, rfl⟩ := assignEach_eq_ok.mp h
  rw [SortedMap.keys, ← bindEach_names bound, List.map_map, List.map_map]
  rfl

theorem plainAssignments_shape (h : w.plainAssignments b = .ok as) : as.map Assignment.shape =
    (w.values.keys.filter fun n => !b.entry.isPrimaryKey n).map fun n => ⟨n, .set, .null⟩ := by
  simp only [plainAssignments, bind_eq_ok (α := List (Option Assignment)), pure_eq_ok] at h
  obtain ⟨found, hf, rfl⟩ := h
  have results := forall₂_mapM hf
  clear hf
  rw [SortedMap.keys]
  generalize w.values.toList = es at results
  induction results with
  | nil => rfl
  | @cons e o es os made _ ih =>
    obtain ⟨c, hc, ⟨key, rfl⟩ | ⟨regular, d, -, rfl⟩⟩ := plain_eq_ok.mp made
    · simpa [Binder.isPrimaryKey_of_column hc, key] using ih
    · simpa [Binder.isPrimaryKey_of_column hc, regular, Assignment.shape] using ih

/-- The seven groups of assignments, in their order. -/
theorem assignments_parts (h : w.assignments b = .ok as) :
    ∃ plain adds removes prepends appends discards puts, w.plainAssignments b = .ok plain ∧
      assignEach .add b.bindSet w.setAdds = .ok adds ∧
      assignEach .discard b.bindSet w.setRemoves = .ok removes ∧
      assignEach .prepend b.bindList w.listPrepends = .ok prepends ∧
      assignEach .add b.bindList w.listAppends = .ok appends ∧
      assignEach .discard b.bindList w.listRemoves = .ok discards ∧
      assignEach .add b.bindMap w.mapPuts = .ok puts ∧
      as = plain ++ adds ++ removes ++ prepends ++ appends ++ discards ++
        puts.filter fun a => a.value ≠ .map [] := by
  simp only [assignments, mapAssignments, bind_eq_ok, pure_eq_ok] at h
  obtain ⟨plain, hp, sa, hsa, sr, hsr, lp, hlp, la, hla, lr, hlr, mp, ⟨puts, hm, rfl⟩, rfl⟩ := h
  exact ⟨plain, sa, sr, lp, la, lr, puts, hp, hsa, hsr, hlp, hla, hlr, hm, rfl⟩

/-- An update has just the assignments that the write asks for. -/
theorem mem_assignments (h : w.assignments b = .ok as) : a ∈ as ↔ w.Assigns b a := by
  obtain ⟨plain, sa, sr, lp, la, lr, puts, hp, hsa, hsr, hlp, hla, hlr, hm, rfl⟩ := assignments_parts h
  simp only [List.mem_append, List.mem_filter, mem_plainAssignments hp, mem_assignEach hsa,
    mem_assignEach hsr, mem_assignEach hlp, mem_assignEach hla, mem_assignEach hlr, mem_assignEach hm]
  constructor
  · rintro ((((((⟨n, c, x, d, hc, regular, given, hd, rfl⟩ | ⟨n, x, d, given, hd, rfl⟩) |
      ⟨n, x, d, given, hd, rfl⟩) | ⟨n, x, d, given, hd, rfl⟩) | ⟨n, x, d, given, hd, rfl⟩) |
      ⟨n, x, d, given, hd, rfl⟩) | ⟨⟨n, x, d, given, hd, rfl⟩, kept⟩)
    · exact .plain hc regular given hd
    · exact .setAdd given hd
    · exact .setRemove given hd
    · exact .listPrepend given hd
    · exact .listAppend given hd
    · exact .listRemove given hd
    · exact .mapPut given hd (by simpa using kept)
  · intro asked
    cases asked with
    | plain hc regular given hd => simp [hc, regular, given, hd]
    | setAdd given hd => simp [given, hd]
    | setRemove given hd => simp [given, hd]
    | listPrepend given hd => simp [given, hd]
    | listAppend given hd => simp [given, hd]
    | listRemove given hd => simp [given, hd]
    | mapPut given hd kept => simp [given, hd, kept]

/-- Some entry with a value is put into the column. -/
def puts (w : Write) (n : String) : Bool :=
  (w.mapPuts.get? n).any fun es => es.toList.any fun e => !e.2.isNull

theorem puts_iff {n : String} : w.puts n = true ↔
    ∃ es, w.mapPuts.get? n = some es ∧ ∃ e ∈ es.toList, e.2.isNull = false := by
  simp [puts, Option.any_eq_true]

/-- Entries are bound to an empty map just if they all lack a value. -/
theorem bindMap_kept {n : String} {es : SortedMap Value Value} {d : Datum}
    (h : b.bindMap n es = .ok d) : d ≠ .map [] ↔ ∃ e ∈ es.toList, e.2.isNull = false := by
  have blank := Binder.bindMap_cell h
  obtain ⟨c, key, value, items, -, -, -, rfl⟩ := Binder.bindMap_eq_ok.mp h
  rw [Datum.cell_map] at blank
  simp [blank]

theorem mapAssignments_shape (h : w.mapAssignments b = .ok as) : as.map Assignment.shape =
    (w.mapPuts.keys.filter w.puts).map fun n => ⟨n, .add, .null⟩ := by
  simp only [mapAssignments, bind_eq_ok, pure_eq_ok] at h
  obtain ⟨puts, hp, rfl⟩ := h
  obtain ⟨cells, bound, rfl⟩ := assignEach_eq_ok.mp hp
  have each := (List.forall₂_and_left _ _).mpr
    ⟨fun e he => SortedMap.mem_toList.mp he, bindEach_eq_ok.mp bound⟩
  clear hp bound
  rw [SortedMap.keys]
  generalize w.mapPuts.toList = es at each
  induction each with
  | nil => rfl
  | @cons e c es cells made _ ih =>
    obtain ⟨given, same, hd⟩ := made
    have kept : c.2 ≠ .map [] ↔ w.puts e.1 = true := by
      rw [bindMap_kept hd, puts_iff]
      simp [given]
    by_cases valued : w.puts e.1 = true
    · simpa [kept.mpr valued, valued, Assignment.shape, same] using ih
    · simpa [not_not.mp (mt kept.mp valued), valued] using ih

/-- What an update assigns is told, but for the values, by the columns that the write names. -/
theorem assignments_shape (h : w.assignments b = .ok as) : as.map Assignment.shape =
    ((w.values.keys.filter fun n => !b.entry.isPrimaryKey n).map fun n => ⟨n, .set, .null⟩) ++
      (w.setAdds.keys.map fun n => ⟨n, .add, .null⟩) ++
      (w.setRemoves.keys.map fun n => ⟨n, .discard, .null⟩) ++
      (w.listPrepends.keys.map fun n => ⟨n, .prepend, .null⟩) ++
      (w.listAppends.keys.map fun n => ⟨n, .add, .null⟩) ++
      (w.listRemoves.keys.map fun n => ⟨n, .discard, .null⟩) ++
      (w.mapPuts.keys.filter w.puts).map fun n => ⟨n, .add, .null⟩ := by
  simp only [assignments, bind_eq_ok, pure_eq_ok] at h
  obtain ⟨plain, hp, sa, hsa, sr, hsr, lp, hlp, la, hla, lr, hlr, mp, hm, rfl⟩ := h
  simp only [List.map_append, plainAssignments_shape hp, assignEach_shape hsa, assignEach_shape hsr,
    assignEach_shape hlp, assignEach_shape hla, assignEach_shape hlr, mapAssignments_shape hm]

/-- The write changes what a collection in the column has. -/
inductive Modifies (w : Write) (n : String) : Prop
  | setAdd {vs : SortedSet Value} (given : w.setAdds.get? n = some vs)
  | setRemove {vs : SortedSet Value} (given : w.setRemoves.get? n = some vs)
  | listPrepend {vs : List Value} (given : w.listPrepends.get? n = some vs)
  | listAppend {vs : List Value} (given : w.listAppends.get? n = some vs)
  | listRemove {vs : List Value} (given : w.listRemoves.get? n = some vs)
  | mapPut (given : w.puts n = true)

/-- Every modification is assigned as such, unless the update fails. -/
theorem Modifies.altered {n : String} (modified : w.Modifies n) (h : w.assignments b = .ok as) :
    ∃ a ∈ as, a.column = n ∧ a.change ≠ .set := by
  simp only [mem_assignments h]
  obtain ⟨plain, sa, sr, lp, la, lr, puts, -, hsa, hsr, hlp, hla, hlr, hm, -⟩ := assignments_parts h
  cases modified with
  | setAdd given =>
    obtain ⟨d, bound⟩ := assignEach_bound hsa given
    exact ⟨_, .setAdd given bound, rfl, nofun⟩
  | setRemove given =>
    obtain ⟨d, bound⟩ := assignEach_bound hsr given
    exact ⟨_, .setRemove given bound, rfl, nofun⟩
  | listPrepend given =>
    obtain ⟨d, bound⟩ := assignEach_bound hlp given
    exact ⟨_, .listPrepend given bound, rfl, nofun⟩
  | listAppend given =>
    obtain ⟨d, bound⟩ := assignEach_bound hla given
    exact ⟨_, .listAppend given bound, rfl, nofun⟩
  | listRemove given =>
    obtain ⟨d, bound⟩ := assignEach_bound hlr given
    exact ⟨_, .listRemove given bound, rfl, nofun⟩
  | mapPut given =>
    obtain ⟨es, given, valued⟩ := puts_iff.mp given
    obtain ⟨d, bound⟩ := assignEach_bound hm given
    exact ⟨_, .mapPut given bound ((bindMap_kept bound).mpr valued), rfl, nofun⟩

theorem Modifies.assigned {n : String} (modified : w.Modifies n) (h : w.assignments b = .ok as) :
    ∃ a ∈ as, a.column = n := by
  obtain ⟨a, ha, column, -⟩ := modified.altered h
  exact ⟨a, ha, column⟩

/-- What is not assigned as a whole is a modification, and its column holds collections. -/
theorem Assigns.modifies (h : w.Assigns b a) (part : a.change ≠ .set) : w.Modifies a.column ∧
    ∃ c, b.column a.column = .ok c ∧ c.type.isCollection = true := by
  cases h with
  | plain => exact absurd rfl part
  | setAdd given bound => exact ⟨.setAdd given, Binder.bindSet_collection bound⟩
  | setRemove given bound => exact ⟨.setRemove given, Binder.bindSet_collection bound⟩
  | listPrepend given bound => exact ⟨.listPrepend given, Binder.bindList_collection bound⟩
  | listAppend given bound => exact ⟨.listAppend given, Binder.bindList_collection bound⟩
  | listRemove given bound => exact ⟨.listRemove given, Binder.bindList_collection bound⟩
  | mapPut given bound kept =>
    have valued := puts_iff.mpr ⟨_, given, (bindMap_kept bound).mp kept⟩
    exact ⟨.mapPut valued, Binder.bindMap_collection bound⟩

theorem assigns_of_mem (h : w.assignments b = .ok as) (ha : a ∈ as) : w.Assigns b a :=
  (mem_assignments h).mp ha

theorem mutated_of_assigns (h : w.Assigns b a) : a.column ∈ w.mutated := by
  simp only [mutated, List.mem_append, SortedMap.mem_keys]
  cases h <;> simp [*]

theorem rowUpdate_parts {s : RowUpdate} (h : w.rowUpdate b = .ok s) :
    s.table = w.table ∧ ttlOption w.ttl = .ok s.ttl ∧ w.assignments b = .ok s.assignments ∧
      b.relations w.keys w.conditions = .ok s.relations ∧ w.onlyIf.mapM b.relation = .ok s.onlyIf := by
  simp only [rowUpdate, bind_eq_ok] at h
  obtain ⟨ttl, ht, as, ha, h⟩ := h
  split at h
  · cases h
  simp only [bind_eq_ok, pure_eq_ok] at h
  obtain ⟨rs, hr, qs, hq, rfl⟩ := h
  exact ⟨rfl, ht, ha, hr, hq⟩

end WideColumn.Write
