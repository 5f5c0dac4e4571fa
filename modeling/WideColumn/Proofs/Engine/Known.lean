import WideColumn.Proofs.Engine.Backed
import WideColumn.Proofs.Engine.TextKey

/-!
What the engine knows of tables, types and prepared texts, and what it compiles with that, has been
answered by the store since the caches were dropped last.
-/
namespace WideColumn

variable {σ κ ν : Type}

namespace Shelf

end Shelf

namespace Op

variable {α : Type} {P : List Event → Prop}

variable [DecidableEq κ] [Hashed κ]

end Op

section Metadata

variable {α : Type} {P : List Event → Prop} [Store σ]

namespace Op

omit [Store σ] in
/-- Serving an entry may start a refresh; it asks for nothing and the caches stay. -/
theorem serve_run (entry : TableEntry) (w : World σ) : ∃ v : World σ,
    (serve entry).run w = (.ok entry, v) ∧ w.CachesKept v ∧ v.events = w.events := by
  rw [serve, run_bind_ok (run_get w)]
  cases entry.isExpired w.clock w.catalog.expiry with
  | false => exact ⟨w, rfl, ⟨rfl, rfl, rfl⟩, rfl⟩
  | true =>
    exact ⟨_, rfl, ⟨Catalog.startRefresh_tables, Catalog.startRefresh_types, rfl⟩, rfl⟩

/-- The types are all described. -/
def Described (keyspace : String) (types : TypeDefs) (past : List Event) : Prop :=
  ∀ t ∈ types, .describeType ⟨keyspace, t.1⟩ (.ok (some t.2)) ∈ past

end Op
end Metadata

section Compile

variable [Store σ]

/-- The statement goes under an identifier that the store gave for its text, and has been compiled
against a table and types as the store described them; all that among these events. -/
structure Compiled.Fresh (σ : Type) [Store σ] (past : List Event) (c : Compiled) : Prop where
  prepared (p : Prepared) : c.prepared = some p → .prepare c.text (.ok p) ∈ past
  against : ∃ (q : Specification) (ctx : Context) (w u v : World σ) (b : Binder),
    (Op.compile q ctx).run w = (.ok c, v) ∧ v.recent <+: past ∧
      (Op.binder q.table).run w = (.ok b, u) ∧ q.plan b = .ok c.plan ∧
      .describeTable q.table (.ok (some b.entry.table)) ∈ past ∧
      Op.Described q.table.keyspace b.types past

end Compile
end WideColumn
