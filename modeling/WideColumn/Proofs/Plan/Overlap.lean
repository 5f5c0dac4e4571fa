import WideColumn.Proofs.Plan.PrimaryKey

/-!
Writes that give a column a whole value and modify it as well. An insertion refuses them, an update makes
both assignments.
-/
namespace WideColumn

open Outcome

namespace Write

variable {w : Write} {b : Binder} {e : Error} {n : String}

/-- The write gives a plain value or a key for the column. -/
def Whole (w : Write) (n : String) : Prop := n ∈ w.values.keys ∨ n ∈ w.keys.keys

/-- The write has elements or entries for the column, whatever becomes of them. -/
def Partly (w : Write) (n : String) : Prop :=
  n ∈ w.setAdds.keys ∨ n ∈ w.setRemoves.keys ∨ n ∈ w.listPrepends.keys ∨ n ∈ w.listAppends.keys ∨
    n ∈ w.listRemoves.keys ∨ n ∈ w.mapPuts.keys

/-- Something that would become a cell does not fit its column. -/
inductive Unfit (w : Write) (b : Binder) (e : Error) : Prop
  | value {n : String} {x : Value} (given : w.values.get? n = some x ∨ w.keys.get? n = some x)
      (refused : b.bind n x = .error e)
  | set {n : String} {vs : SortedSet Value} (given : w.setAdds.get? n = some vs)
      (refused : b.bindSet n vs = .error e)
  | list {n : String} (given : n ∈ w.listPrepends.keys ∨ n ∈ w.listAppends.keys)
      (refused : b.bindList n ((w.listPrepends.get? n).getD [] ++ (w.listAppends.get? n).getD []) =
        .error e)
  | map {n : String} {es : SortedMap Value Value} (given : w.mapPuts.get? n = some es)
      (refused : b.bindMap n es = .error e)

section Errors

theorem bindEach_error {α : Type} {bind : String → α → Except Error Datum} {es : List (String × α)}
    (h : bindEach bind es = .error e) : ∃ n a, (n, a) ∈ es ∧ bind n a = .error e := by
  obtain ⟨⟨n, a⟩, entry, refused⟩ := of_mapM_error h
  obtain refused | ⟨d, -, made⟩ := bind_eq_error.mp refused
  · exact ⟨n, a, entry, refused⟩
  · cases made

theorem folded_error (h : w.folded b = .error e) : w.Unfit b e := by
  rw [folded_eq] at h
  obtain h | ⟨sets, -, h⟩ := bind_eq_error.mp h
  · obtain ⟨n, vs, entry, refused⟩ := bindEach_error h
    exact .set (SortedMap.mem_toList.mp entry) refused
  obtain h | ⟨lists, -, h⟩ := bind_eq_error.mp h
  · obtain ⟨n, vs, entry, refused⟩ := bindEach_error h
    obtain ⟨given, rfl⟩ := mem_listColumns.mp entry
    exact .list given refused
  obtain h | ⟨maps, -, h⟩ := bind_eq_error.mp h
  · obtain ⟨n, es, entry, refused⟩ := bindEach_error h
    exact .map (SortedMap.mem_toList.mp entry) refused
  · cases h

theorem addCells_error {cells : SortedMap String Datum} {more : List (String × Datum)}
    (h : addCells cells more = .error e) : ∃ n, e = .validation (.assignedAndModified n) := by
  induction more generalizing cells with
  | nil => cases h
  | cons c more ih =>
    rw [addCells] at h
    split at h
    · cases h
      exact ⟨c.1, rfl⟩
    · exact ih h

theorem ttlOption_error {ttl : Option Duration} (h : ttlOption ttl = .error e) :
    ∃ r, e = .validation r := by
  cases ttl with
  | none => cases h
  | some span =>
    rw [ttlOption, ttlSeconds] at h
    split at h
    · cases h
      exact ⟨_, rfl⟩
    · split at h <;> cases h
      exact ⟨_, rfl⟩

/-- An insertion fails by what it is given for a column, or else it is itself not valid. -/
theorem insertion_error (h : w.insertion b = .error e) : w.Unfit b e ∨ ∃ r, e = .validation r := by
  rw [insertion] at h
  split at h
  · cases h
    exact .inr ⟨_, rfl⟩
  split at h
  · cases h
    exact .inr ⟨_, rfl⟩
  obtain h | ⟨vs, -, h⟩ := bind_eq_error.mp h
  · obtain ⟨n, x, entry, refused⟩ := bindEach_error h
    exact .inl (.value (.inl (SortedMap.mem_toList.mp entry)) refused)
  obtain h | ⟨ks, -, h⟩ := bind_eq_error.mp h
  · obtain ⟨n, x, entry, refused⟩ := bindEach_error h
    exact .inl (.value (.inr (SortedMap.mem_toList.mp entry)) refused)
  obtain h | ⟨fs, -, h⟩ := bind_eq_error.mp h
  · exact .inl (folded_error h)
  obtain h | ⟨cells, -, h⟩ := bind_eq_error.mp h
  · obtain ⟨n, rfl⟩ := addCells_error h
    exact .inr ⟨_, rfl⟩
  split at h
  · cases h
    exact .inr ⟨_, rfl⟩
  obtain h | ⟨ttl, -, h⟩ := bind_eq_error.mp h
  · exact .inr (ttlOption_error h)
  · cases h

end Errors

/-- No column of an insertion is given as a whole and in parts. -/
theorem insertion_apart {s : Insertion} (h : w.insertion b = .ok s) (whole : w.Whole n) :
    ¬ w.Partly n := by
  obtain ⟨-, -, setRemoves, listRemoves, -⟩ := insertion_parts h
  intro partly
  simp only [Partly, SortedMap.keys_eq_nil setRemoves, SortedMap.keys_eq_nil listRemoves, List.not_mem_nil,
    false_or] at partly
  obtain ⟨unvalued, unkeyed⟩ := whole_apart h partly
  exact whole.elim unvalued unkeyed

section Update

variable {as : List Assignment}

/-- A column is assigned as a whole if there is a plain value for it and it is none of the primary key. -/
theorem assigned_iff (h : w.assignments b = .ok as) : (∃ a ∈ as, a.column = n ∧ a.change = .set) ↔
    n ∈ w.values.keys ∧ b.entry.isPrimaryKey n = false := by
  rw [SortedMap.mem_keys]
  constructor
  · rintro ⟨a, ha, rfl, whole⟩
    cases assigns_of_mem h ha with
    | plain column regular given bound =>
      exact ⟨⟨_, given⟩, (Binder.isPrimaryKey_of_column column).trans regular⟩
    | _ => cases whole
  · rintro ⟨⟨x, given⟩, regular⟩
    obtain ⟨plain, _, _, _, _, _, _, hp, -⟩ := assignments_parts h
    obtain ⟨c, column, key | ⟨d, bound⟩⟩ := plainAssignments_bound hp given
    · rw [Binder.isPrimaryKey_of_column column, key] at regular
      cases regular
    · rw [Binder.isPrimaryKey_of_column column] at regular
      exact ⟨_, (mem_assignments h).mpr (.plain column regular given bound), rfl, rfl⟩

/-- A column is changed by parts if the write modifies it, of the primary key or not. -/
theorem altered_iff (h : w.assignments b = .ok as) :
    (∃ a ∈ as, a.column = n ∧ a.change ≠ .set) ↔ w.Modifies n := by
  constructor
  · rintro ⟨a, ha, rfl, part⟩
    exact ((assigns_of_mem h ha).modifies part).1
  · exact fun modified => modified.altered h

end Update

/-- How the statement of a write deals with columns that are given both as a whole and in parts. -/
def Overlaps (w : Write) (b : Binder) : Statement → Prop
  | .insert s => (s.cells.map Prod.fst).Nodup ∧ ∀ n, w.Whole n → ¬ w.Partly n
  | .update s => ∀ n, ((∃ a ∈ s.assignments, a.column = n ∧ a.change = .set) ∧
      ∃ a ∈ s.assignments, a.column = n ∧ a.change ≠ .set) ↔
        n ∈ w.values.keys ∧ b.entry.isPrimaryKey n = false ∧ w.Modifies n
  | _ => False

end Write

variable {σ : Type} [Store σ] {w : Write} {ctx : Context} {u x : World σ} {b : Binder}

theorem compile_mutation_error {m : Mutation} {e : Error} (hb : (Op.binder m.table).run u = (.ok b, x))
    (checked : m.check = .ok ()) (refused : m.plan b = .error e) :
    (Op.compile (.mutation m) ctx).run u = (.error e, x) := by
  rw [Op.compile, Op.compileMutation, checked, Op.run_bind_ok (Op.run_ofExcept _ u), Op.run_bind_ok hb,
    refused, Op.run_bind_error (Op.run_ofExcept _ x)]

/-- Writes compile to no insertion that gives a column in two ways: where one would, it is refused. An
update assigns and modifies every column that the write does both to. -/
theorem compile_of_overlap :
    (∀ c v, (Op.compile (.mutation (.write w)) ctx).run u = (.ok c, v) →
      ∃ b x, (Op.binder w.table).run u = (.ok b, x) ∧ w.Overlaps b c.statement) ∧
    ∀ b x n, (Op.binder w.table).run u = (.ok b, x) → w.isInsertion = true → w.Whole n → w.Partly n →
      ∃ e, (Op.compile (.mutation (.write w)) ctx).run u = (.error e, x) ∧
        (w.Unfit b e ∨ ∃ r, e = .validation r) := by
  constructor
  · intro c v h
    obtain ⟨b, x, hb, checked, planned⟩ := Mutation.compiled h
    refine ⟨b, x, hb, ?_⟩
    rw [Compiled.statement]
    obtain ⟨-, s, inserted, same⟩ | ⟨-, -, s, updated, same⟩ := Write.plan_cases checked planned
    · rw [same]
      refine ⟨?_, fun n => Write.insertion_apart inserted⟩
      obtain ⟨-, -, -, -, -, -, _, _, _, cells, -, -, -, -, same⟩ := Write.insertion_parts inserted
      rw [same]
      exact cells.nodup_keys
    · rw [same]
      obtain ⟨-, -, assigned, -⟩ := Write.rowUpdate_parts updated
      intro n
      rw [Write.assigned_iff assigned, Write.altered_iff assigned, and_assoc]
  · intro b x n hb inserts whole partly
    have anywhere : w.conditions.isEmpty = true := (Bool.and_eq_true_iff.mp inserts).1
    have checked : w.check = .ok () := by simp [Write.check, anywhere]
    cases inserted : w.insertion b with
    | ok s => exact absurd partly (Write.insertion_apart inserted whole)
    | error e =>
      have refused : w.plan b = .error e := by
        rw [Write.plan, if_pos inserts, inserted]
        rfl
      exact ⟨e, compile_mutation_error hb checked refused, Write.insertion_error inserted⟩

/-- A row with one set given and the other added to, the same set both given and added to, and an update of
both sets. -/
theorem writes_of_tags :
    let id : TableId := ⟨"k", "a"⟩
    let world : World Script := World.new {} { tables := [⟨id, [⟨"id", .int, .partitionKey⟩,
      ⟨"tags", .set .text, .regular⟩, ⟨"labels", .set .text, .regular⟩]⟩] }
    let row : Write := {
      table := id
      values := .ofList [("id", .int 1), ("tags", .set [.text "a"])]
      setAdds := .ofList [("labels", .ofList [.text "b"])] }
    let twice : Write := {
      table := id
      values := .ofList [("id", .int 1), ("tags", .set [.text "a"])]
      setAdds := .ofList [("tags", .ofList [.text "b"])] }
    let update : Write := {
      table := id
      keys := .ofList [("id", .int 1)]
      values := .ofList [("tags", .set [.text "a"])]
      setAdds := .ofList [("labels", .ofList [.text "b"])] }
    (∃ c v b x, (Op.compile (.mutation (.write row)) {}).run world = (.ok c, v) ∧
      c.text = "INSERT INTO k.a (id, labels, tags) VALUES (?, ?, ?)" ∧
      (Op.binder id).run world = (.ok b, x) ∧ row.Overlaps b c.statement) ∧
    (∃ b x e, (Op.compile (.mutation (.write twice)) {}).run world = (.error e, x) ∧
      e = .validation (.assignedAndModified "tags") ∧ (twice.Unfit b e ∨ ∃ r, e = .validation r)) ∧
    ∃ c v b x, (Op.compile (.mutation (.write update)) {}).run world = (.ok c, v) ∧
      c.text = "UPDATE k.a SET tags = ?, labels = labels + ? WHERE id = ?" ∧
      (Op.binder id).run world = (.ok b, x) ∧ update.Overlaps b c.statement := by
  intro id world row twice update
  refine ⟨?_, ?_, ?_⟩
  · obtain ⟨c, v, compiled, text⟩ : ∃ c v,
        (Op.compile (.mutation (.write row)) {}).run world = (.ok c, v) ∧
        c.text = "INSERT INTO k.a (id, labels, tags) VALUES (?, ?, ?)" := ⟨_, _, rfl, by decide +kernel⟩
    obtain ⟨b, x, hb, overlaps⟩ := compile_of_overlap.1 c v compiled
    exact ⟨c, v, b, x, compiled, text, hb, overlaps⟩
  · obtain ⟨b, x, hb, refused⟩ : ∃ b x, (Op.binder id).run world = (.ok b, x) ∧
        (Op.compile (.mutation (.write twice)) {}).run world =
          (.error (.validation (.assignedAndModified "tags")), x) := ⟨_, _, rfl, rfl⟩
    have whole : twice.Whole "tags" := .inl (by decide +kernel)
    have partly : twice.Partly "tags" := .inl (by decide +kernel)
    have inserts : twice.isInsertion = true := rfl
    obtain ⟨e, refused', reason⟩ := (compile_of_overlap (w := twice)).2 b x "tags" hb inserts whole partly
    rw [refused] at refused'
    cases refused'
    exact ⟨b, x, _, refused, rfl, reason⟩
  · obtain ⟨c, v, compiled, text⟩ : ∃ c v,
        (Op.compile (.mutation (.write update)) {}).run world = (.ok c, v) ∧
        c.text = "UPDATE k.a SET tags = ?, labels = labels + ? WHERE id = ?" := ⟨_, _, rfl, by decide +kernel⟩
    obtain ⟨b, x, hb, overlaps⟩ := compile_of_overlap.1 c v compiled
    exact ⟨c, v, b, x, compiled, text, hb, overlaps⟩

/-- A set is given and added to by one update. -/
theorem tags_set_and_added_to :
    let id : TableId := ⟨"k", "a"⟩
    let world : World Script := World.new {} { tables := [⟨id, [⟨"id", .int, .partitionKey⟩,
      ⟨"tags", .set .text, .regular⟩]⟩] }
    let w : Write := {
      table := id
      keys := .ofList [("id", .int 1)]
      values := .ofList [("tags", .set [.text "a"])]
      setAdds := .ofList [("tags", .ofList [.text "b"])] }
    ∃ c v s, (Op.compile (.mutation (.write w)) {}).run world = (.ok c, v) ∧
      c.text = "UPDATE k.a SET tags = ?, tags = tags + ? WHERE id = ?" ∧ c.statement = .update s ∧
      ⟨"tags", .set, .set [.text "a"]⟩ ∈ s.assignments ∧ ⟨"tags", .add, .set [.text "b"]⟩ ∈ s.assignments := by
  exact ⟨_, _, _, rfl, by decide +kernel, rfl, by decide +kernel, by decide +kernel⟩

end WideColumn
