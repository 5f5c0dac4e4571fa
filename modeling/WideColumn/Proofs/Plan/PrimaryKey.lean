import WideColumn.Proofs.Plan.Restrictions

/-!
What an update does to columns of the primary key. Plain values for them are passed over; modifications
of collections are not.
-/
namespace WideColumn

open Outcome

namespace Write

variable {w : Write} {b : Binder} {a : Assignment} {k : Column}

/-- What is assigned to a column of the primary key is a modification of a collection. -/
theorem Assigns.primaryKey (h : w.Assigns b a) (hk : b.column a.column = .ok k)
    (key : k.isPrimaryKey = true) :
    a.change ≠ .set ∧ k.type.isCollection = true ∧ w.Modifies a.column := by
  have part : a.change ≠ .set := by
    intro whole
    cases h with
    | plain hc regular =>
      cases hk.symm.trans hc
      rw [key] at regular
      cases regular
    | _ => cases whole
  obtain ⟨modified, c, hc, collection⟩ := h.modifies part
  cases hk.symm.trans hc
  exact ⟨part, collection, modified⟩

/-- What compiles to an update has been assigned under the metadata of the table. -/
theorem compiled_update {σ : Type} [Store σ] {ctx : Context} {c : Compiled} {u v : World σ}
    {s : RowUpdate} (h : (Op.compile (.mutation (.write w)) ctx).run u = (.ok c, v))
    (update : c.statement = .update s) :
    ∃ b x, (Op.binder w.table).run u = (.ok b, x) ∧ w.rowUpdate b = .ok s := by
  obtain ⟨b, x, hb, checked, planned⟩ := Mutation.compiled h
  refine ⟨b, x, hb, ?_⟩
  obtain ⟨-, s', -, same⟩ | ⟨-, -, s', updated, same⟩ := plan_cases checked planned
  · cases update.symm.trans same
  · cases update.symm.trans same
    exact updated

end Write

variable {σ : Type} [Store σ] {w : Write} {ctx : Context} {c : Compiled} {u v : World σ} {s : RowUpdate}

/-- No update assigns a whole value to a column of the primary key, and none touches one that does not
hold collections. One that does is modified just as the write asks. -/
theorem update_of_primaryKey (h : (Op.compile (.mutation (.write w)) ctx).run u = (.ok c, v))
    (update : c.statement = .update s) :
    ∃ b x, (Op.binder w.table).run u = (.ok b, x) ∧
      ∀ n k, b.column n = .ok k → k.isPrimaryKey = true →
        (∀ a ∈ s.assignments, a.column = n → a.change ≠ .set ∧ k.type.isCollection = true) ∧
        ((∃ a ∈ s.assignments, a.column = n) ↔ w.Modifies n) := by
  obtain ⟨b, x, hb, updated⟩ := Write.compiled_update h update
  obtain ⟨-, -, assigned, -, -⟩ := Write.rowUpdate_parts updated
  refine ⟨b, x, hb, fun n k hk key => ⟨?_, ?_, fun modified => modified.assigned assigned⟩⟩
  · rintro a ha rfl
    obtain ⟨part, collection, -⟩ := (Write.assigns_of_mem assigned ha).primaryKey hk key
    exact ⟨part, collection⟩
  · rintro ⟨a, ha, rfl⟩
    exact ((Write.assigns_of_mem assigned ha).primaryKey hk key).2.2

/-- Plain values for both keys are passed over, and the set of labels, which is no key, is added to. -/
theorem update_of_labels :
    let id : TableId := ⟨"k", "a"⟩
    let world : World Script := World.new {} { tables := [⟨id, [⟨"id", .int, .partitionKey⟩,
      ⟨"tags", .set .text, .clustering⟩, ⟨"labels", .set .text, .regular⟩]⟩] }
    let w : Write := {
      table := id
      keys := .ofList [("id", .int 1), ("tags", .set [.text "a"])]
      values := .ofList [("id", .int 2), ("tags", .set [])]
      setAdds := .ofList [("labels", .ofList [.text "new"])] }
    ∃ c v s, (Op.compile (.mutation (.write w)) {}).run world = (.ok c, v) ∧ c.statement = .update s ∧
      c.text = "UPDATE k.a SET labels = labels + ? WHERE id = ? AND tags = ?" ∧
      ∃ b x, (Op.binder w.table).run world = (.ok b, x) ∧
        ∀ n k, b.column n = .ok k → k.isPrimaryKey = true →
          (∀ a ∈ s.assignments, a.column = n → a.change ≠ .set ∧ k.type.isCollection = true) ∧
          ((∃ a ∈ s.assignments, a.column = n) ↔ w.Modifies n) := by
  intro id world w
  obtain ⟨c, v, s, compiled, update, text⟩ : ∃ c v s,
      (Op.compile (.mutation (.write w)) {}).run world = (.ok c, v) ∧ c.statement = .update s ∧
      c.text = "UPDATE k.a SET labels = labels + ? WHERE id = ? AND tags = ?" :=
    ⟨_, _, _, rfl, rfl, by decide +kernel⟩
  exact ⟨c, v, s, compiled, update, text, update_of_primaryKey compiled update⟩

/-- A set that is a clustering column is added to like any other. -/
theorem clustering_set_added_to :
    let id : TableId := ⟨"k", "a"⟩
    let world : World Script := World.new {} { tables := [⟨id, [⟨"id", .int, .partitionKey⟩,
      ⟨"tags", .set .text, .clustering⟩, ⟨"note", .text, .regular⟩]⟩] }
    let w : Write := {
      table := id
      keys := .ofList [("id", .int 1), ("tags", .set [.text "a"])]
      values := .ofList [("note", .text "x")]
      setAdds := .ofList [("tags", .ofList [.text "b"])] }
    ∃ b x c v s a, (Op.binder id).run world = (.ok b, x) ∧ b.entry.isPrimaryKey "tags" = true ∧
      (Op.compile (.mutation (.write w)) {}).run world = (.ok c, v) ∧
      c.text = "UPDATE k.a SET note = ?, tags = tags + ? WHERE id = ? AND tags = ?" ∧
      c.statement = .update s ∧ a ∈ s.assignments ∧ a.column = "tags" := by
  exact ⟨_, _, _, _, _, ⟨"tags", .add, .set [.text "b"]⟩, rfl, rfl, rfl, by decide +kernel, rfl,
    by decide +kernel, rfl⟩

end WideColumn
