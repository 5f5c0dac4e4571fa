import WideColumn.Plan.Mutation
import WideColumn.Plan.Read
import WideColumn.Proofs.Plan.Assignments
import WideColumn.Proofs.Plan.Binder
import WideColumn.Proofs.Plan.Insertion
import WideColumn.Spec.Specification

/-!
Plans are for the table that is asked for, and their statements suit its columns: counters are moved,
and only collections are changed in part.
-/
namespace WideColumn

open Outcome

def Specification.table : Specification → TableId
  | mutation m => m.table
  | read r => r.table

/-- What compilation decides before it needs the store for anything but the metadata. -/
def Specification.plan : Specification → Binder → Except Error Plan
  | mutation m, b => do
    m.check
    m.plan b
  | read r, b => r.plan b

/-- Counters are moved, and what is changed in part is no counter. -/
def Statement.Fits (b : Binder) : Statement → Prop
  | counter s => ∃ c, b.column s.column = .ok c ∧ c.type.isCounter = true
  | update s => ∀ a ∈ s.assignments, a.change ≠ .set →
      ∃ c, b.column a.column = .ok c ∧ c.type.isCounter = false
  | _ => True

/-- The plan is for the table and suits its columns. Only a text with markers is prepared. -/
structure Plan.Suits (p : Plan) (table : TableId) (b : Binder) : Prop where
  table : p.statement.table = table
  fits : p.statement.Fits b
  markers : p.prepare = true → p.binding = .markers

theorem Plan.suits_of {s : Statement} {binding : Binding} {ttl : Option Duration} {table : TableId}
    {b : Binder} (ht : s.table = table) (hf : s.Fits b) : (Plan.of s binding ttl).Suits table b :=
  ⟨ht, hf, by simp [Plan.of]⟩

namespace Write

variable {w : Write} {b : Binder} {p : Plan}

theorem assignments_column {as : List Assignment} (h : w.assignments b = .ok as) :
    ∀ a ∈ as, a.change ≠ .set → ∃ c, b.column a.column = .ok c ∧ c.type.isCounter = false := by
  intro a ha part
  obtain ⟨-, c, hc, collection⟩ := (assigns_of_mem h ha).modifies part
  exact ⟨c, hc, ColumnType.not_counter_of_collection collection⟩

theorem rowUpdate_fits {u : RowUpdate} (h : w.rowUpdate b = .ok u) :
    u.table = w.table ∧ (Statement.update u).Fits b := by
  obtain ⟨table, -, assigned, -, -⟩ := rowUpdate_parts h
  exact ⟨table, assignments_column assigned⟩

theorem plan_suits (h : w.plan b = .ok p) : p.Suits w.table b := by
  rw [plan] at h
  split at h
  · simp only [bind_eq_ok, pure_eq_ok] at h
    obtain ⟨s, hs, rfl⟩ := h
    exact Plan.suits_of (insertion_parts hs).1 trivial
  · simp only [updatePlan, bind_eq_ok, pure_eq_ok] at h
    obtain ⟨u, hu, rfl⟩ := h
    obtain ⟨ht, hf⟩ := rowUpdate_fits hu
    exact Plan.suits_of ht hf

end Write

variable {b : Binder} {p : Plan}

theorem CounterUpdate.plan_suits {u : CounterUpdate} (h : u.plan b = .ok p) :
    p.Suits u.table b := by
  simp only [plan, bind_eq_ok] at h
  obtain ⟨c, hc, h⟩ := h
  split at h
  · cases h
  · rename_i counter
    simp only [bind_eq_ok, pure_eq_ok] at h
    obtain ⟨rs, -, rfl⟩ := h
    exact Plan.suits_of rfl ⟨c, hc, by simpa using counter⟩

theorem Deletion.plan_suits {d : Deletion} (h : d.plan b = .ok p) : p.Suits d.table b := by
  simp only [plan, bind_eq_ok, pure_eq_ok] at h
  obtain ⟨rs, -, qs, -, rfl⟩ := h
  exact Plan.suits_of rfl trivial

theorem Read.plan_suits {r : Read} (h : r.plan b = .ok p) : p.Suits r.table b := by
  simp only [plan, selection, bind_eq_ok, pure_eq_ok] at h
  obtain ⟨s, ⟨pr, -, ks, -, cs, -, l, -, rfl⟩, rfl⟩ := h
  exact ⟨rfl, trivial, fun _ => rfl⟩

theorem Specification.plan_suits {q : Specification} (h : q.plan b = .ok p) :
    p.Suits q.table b := by
  cases q with
  | read r => exact r.plan_suits h
  | mutation m =>
    simp only [plan, bind_eq_ok] at h
    obtain ⟨_, -, h⟩ := h
    cases m with
    | write w => exact w.plan_suits h
    | delete d => exact d.plan_suits h
    | counter u => exact u.plan_suits h

end WideColumn
