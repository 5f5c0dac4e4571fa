import WideColumn.Proofs.Interceptor.Constraints
import WideColumn.Proofs.Statement.Values

/-!
Collections of nothing. They go to the store as null, except for the empty map that an insertion makes of
entries which all lack a value.
-/
namespace WideColumn

open Outcome

/-- A collection of nothing that is not null. -/
def Datum.isHollow : Datum → Bool
  | list items | set items => items.isEmpty
  | map entries => entries.isEmpty
  | _ => false

theorem Datum.cell_of_isHollow {d : Datum} (h : d.isHollow = true) : d.cell = none := by
  cases d <;> simp_all [isHollow]

namespace Binder

variable {b : Binder} {column name : String} {d : Datum} {v : Value} {type : ColumnType}

/-- A whole value is converted to null if there is nothing in it. -/
theorem convert_not_isHollow (h : b.convert v column type = .ok d) : d.isHollow = false := by
  refine Bool.eq_false_iff.mpr fun hollow => ?_
  cases eq_null_of_isBlank ((convert_cell h).mp (Datum.cell_of_isHollow hollow)) h
  cases hollow

theorem bind_not_isHollow (h : b.bind name v = .ok d) : d.isHollow = false := by
  obtain ⟨c, -, h⟩ := bind_eq_ok.mp h
  exact convert_not_isHollow h

theorem Becomes.not_isHollow {c : Clause} {r : Relation} (h : b.Becomes c r) {role : Role}
    (hd : (role, d) ∈ r.bound) : d.isHollow = false := by
  cases h with
  | compare bound =>
    cases List.mem_singleton.mp hd
    exact bind_not_isHollow bound
  | isIn _ each =>
    obtain ⟨d', member, same⟩ := List.mem_map.mp hd
    cases same
    obtain ⟨v, -, bound⟩ := exists_of_forall₂ each.flip member
    exact bind_not_isHollow bound

theorem relations_not_isHollow {cs : List Clause} {rs : List Relation}
    (h : List.Forall₂ b.Becomes cs rs) {role : Role} (hd : (role, d) ∈ rs.flatMap Relation.bound) :
    d.isHollow = false := by
  obtain ⟨r, hr, hd⟩ := List.mem_flatMap.mp hd
  obtain ⟨c, -, becomes⟩ := exists_of_forall₂ h.flip hr
  exact becomes.not_isHollow hd

end Binder

theorem mem_ttlBound {ttl : Option Int32} {role : Role} {d : Datum} (hd : (role, d) ∈ ttlBound ttl) :
    role = .timeToLive ∧ d.isHollow = false := by
  cases ttl with
  | none => cases hd
  | some seconds =>
    cases List.mem_singleton.mp hd
    exact ⟨rfl, rfl⟩

namespace Write

variable {w : Write} {b : Binder} {n : String} {d : Datum}

/-- An update assigns no empty collection, whichever way. -/
theorem Filled.assigned_not_isHollow (filled : w.Filled) {a : Assignment} (h : w.Assigns b a) :
    a.value.isHollow = false := by
  refine Bool.eq_false_iff.mpr fun hollow => ?_
  obtain ⟨whole, -⟩ := (filled.assigned_cell h).mp (Datum.cell_of_isHollow hollow)
  cases h with
  | plain _ _ _ bound => simp [Binder.bind_not_isHollow bound] at hollow
  | _ => cases whole

/-- Entries are put into the column, and they all lack a value. -/
def PutsNothing (w : Write) (n : String) : Prop :=
  ∃ es, w.mapPuts.get? n = some es ∧ ∀ e ∈ es.toList, e.2.isNull = true

theorem Filled.inserts_isHollow (filled : w.Filled) (h : w.Inserts b n d) (hollow : d.isHollow = true) :
    w.PutsNothing n := by
  have none := Datum.cell_of_isHollow hollow
  cases h with
  | key _ bound | value _ _ bound => simp [Binder.bind_not_isHollow bound] at hollow
  | map given bound => exact ⟨_, given, (Binder.bindMap_cell bound).mp none⟩
  | set given bound => exact absurd ((Binder.bindSet_cell bound).mp none) (filled.setAdds _ _ given)
  | list given bound => exact absurd ((Binder.bindList_cell bound).mp none) (filled.ends_ne_nil given)

theorem PutsNothing.inserts {s : Insertion} (h : w.insertion b = .ok s) (nothing : w.PutsNothing n) :
    w.Inserts b n (.map []) := by
  obtain ⟨es, given, valueless⟩ := nothing
  obtain ⟨-, -, -, -, put⟩ := insertion_bound h (n := n)
  obtain ⟨d, bound⟩ := put es given
  have none := (Binder.bindMap_cell bound).mpr valueless
  obtain ⟨c, key, value, items, -, -, -, rfl⟩ := Binder.bindMap_eq_ok.mp bound
  rw [Datum.cell_map.mp none] at bound
  exact .map given bound

/-- A cell of an insertion is an empty collection just where entries are put that all lack a value. -/
theorem Filled.inserted_isHollow (filled : w.Filled) {s : Insertion} (h : w.insertion b = .ok s)
    (hd : (n, d) ∈ s.cells) : d.isHollow = true ↔ w.PutsNothing n := by
  refine ⟨filled.inserts_isHollow ((mem_insertion h).mp hd), fun nothing => ?_⟩
  rw [insertion_cell_unique h hd ((mem_insertion h).mpr (nothing.inserts h))]
  rfl

end Write

/-- No value in the statement is an empty collection. -/
def Statement.Solid (s : Statement) : Prop := ∀ role d, (role, d) ∈ s.bound → d.isHollow = false

section Plan

variable {b : Binder} {p : Plan}

theorem Write.Filled.updated_solid {w : Write} (filled : w.Filled) {s : RowUpdate}
    (h : w.rowUpdate b = .ok s) : (Statement.update s).Solid := by
  obtain ⟨-, -, assigned, related, guarded⟩ := rowUpdate_parts h
  intro role d hd
  simp only [Statement.bound, RowUpdate.bound, List.mem_append] at hd
  obtain ((ttl | assignment) | relation) | onlyIf := hd
  · exact (mem_ttlBound ttl).2
  · obtain ⟨a, ha, same⟩ := List.mem_map.mp assignment
    cases same
    exact filled.assigned_not_isHollow (assigns_of_mem assigned ha)
  · exact Binder.relations_not_isHollow (Binder.relations_become related) relation
  · exact Binder.relations_not_isHollow (Binder.conditions_become guarded) onlyIf

theorem CounterUpdate.plan_solid {u : CounterUpdate} (h : u.plan b = .ok p) : p.statement.Solid := by
  simp only [plan, bind_eq_ok] at h
  obtain ⟨c, -, h⟩ := h
  split at h
  · cases h
  simp only [bind_eq_ok, pure_eq_ok] at h
  obtain ⟨rs, related, rfl⟩ := h
  intro role d hd
  obtain moved | relation := List.mem_cons.mp hd
  · cases moved
    rfl
  · exact Binder.relations_not_isHollow (Binder.relations_become related) relation

theorem Deletion.plan_solid {x : Deletion} (h : x.plan b = .ok p) : p.statement.Solid := by
  simp only [plan, bind_eq_ok, pure_eq_ok] at h
  obtain ⟨rs, related, qs, guarded, rfl⟩ := h
  intro role d hd
  obtain relation | onlyIf := List.mem_append.mp hd
  · exact Binder.relations_not_isHollow (Binder.relations_become related) relation
  · split at onlyIf
    · cases onlyIf
    · exact Binder.relations_not_isHollow (Binder.conditions_become guarded) onlyIf

/-- A key of a read is compared with the one value that it has, or has to be among several. -/
theorem Read.keyRelation_becomes {key : String × List Value} {r : Relation}
    (h : keyRelation b key = .ok r) : ∃ c, b.Becomes c r := by
  obtain ⟨n, _ | ⟨v, _ | ⟨u, vs⟩⟩⟩ := key
  · cases h
  · simp only [keyRelation, bind_eq_ok, pure_eq_ok] at h
    obtain ⟨d, hd, rfl⟩ := h
    exact ⟨_, .compare hd⟩
  · simp only [keyRelation, bind_eq_ok, pure_eq_ok] at h
    obtain ⟨ds, hds, rfl⟩ := h
    exact ⟨_, .isIn (List.cons_ne_nil v _) (forall₂_mapM hds)⟩

theorem Read.plan_solid {r : Read} (h : r.plan b = .ok p) : p.statement.Solid := by
  simp only [plan, selection, bind_eq_ok, pure_eq_ok] at h
  obtain ⟨s, ⟨-, -, ks, keyed, cs, related, limit, -, rfl⟩, rfl⟩ := h
  intro role d hd
  simp only [Statement.bound, Selection.bound, List.flatMap_append, List.mem_append] at hd
  obtain (key | relation) | limited := hd
  · obtain ⟨q, hq, hd⟩ := List.mem_flatMap.mp key
    obtain ⟨k, -, made⟩ := of_mem_mapM keyed hq
    obtain ⟨c, becomes⟩ := keyRelation_becomes made
    exact becomes.not_isHollow hd
  · exact Binder.relations_not_isHollow (Binder.conditions_become related) relation
  · split at limited
    · cases limited
    · cases List.mem_singleton.mp limited
      rfl

end Plan

/-- The request is put together by refining a bare one step by step. -/
def Specification.Built : Specification → Prop
  | mutation (.write w) => ∃ id steps, w = .applyAll { table := id } steps
  | _ => True

/-- The value in this role is what a row is made with where entries are put that all lack a value. -/
def Specification.Empties (role : Role) : Specification → Statement → Prop
  | mutation (.write w), .insert _ => ∃ n, role = .cell n ∧ w.PutsNothing n
  | _, _ => False

/-- Whatever reaches the store beside the text or in it has its role in the statement. -/
theorem Statement.exists_role {s : Statement} {binding : Binding} {d : Datum}
    (h : d ∈ s.values binding ∨ .slot d ∈ s.pieces) : ∃ role, (role, d) ∈ s.bound := by
  have valued : d ∈ s.values .markers := by
    obtain sent | slot := h
    · cases binding with
      | markers => exact sent
      | literals => cases sent
    · exact List.mem_filterMap.mpr ⟨_, slot, rfl⟩
  rw [s.values_markers] at valued
  obtain ⟨⟨role, d'⟩, bound, rfl⟩ := List.mem_map.mp valued
  exact ⟨role, bound⟩

theorem Statement.Solid.isHollow_iff {s : Statement} (solid : s.Solid) {role : Role} {d : Datum}
    (hd : (role, d) ∈ s.bound) : d.isHollow = true ↔ False :=
  iff_false_intro (by simp [solid role d hd])

theorem Write.Filled.planned_isHollow {w : Write} (filled : w.Filled) {b : Binder} {p : Plan}
    (checked : w.check = .ok ()) (h : w.plan b = .ok p) {role : Role} {d : Datum}
    (hd : (role, d) ∈ p.statement.bound) :
    d.isHollow = true ↔ Specification.Empties role (.mutation (.write w)) p.statement := by
  obtain ⟨-, s, inserted, same⟩ | ⟨-, -, s, updated, same⟩ := Write.plan_cases checked h <;>
    rw [same] at hd ⊢
  · obtain cell | ttl := List.mem_append.mp hd
    · obtain ⟨⟨n, d'⟩, member, same⟩ := List.mem_map.mp cell
      cases same
      simpa [Specification.Empties] using filled.inserted_isHollow inserted member
    · obtain ⟨rfl, solid⟩ := mem_ttlBound ttl
      simp [solid, Specification.Empties]
  · exact (filled.updated_solid updated).isHollow_iff hd

variable {σ : Type} [Store σ] {spec : Specification} {ctx : Context} {c : Compiled} {u v : World σ}

/-- Nothing in a compiled statement is an empty collection, but for the cells of an insertion for which all
entries that are put lack a value. -/
theorem compiled_isHollow (built : spec.Built) (compiled : (Op.compile spec ctx).run u = (.ok c, v)) :
    (∀ d, d ∈ c.values ∨ .slot d ∈ c.statement.pieces → ∃ role, (role, d) ∈ c.statement.bound) ∧
      ∀ role d, (role, d) ∈ c.statement.bound → (d.isHollow = true ↔ spec.Empties role c.statement) := by
  refine ⟨fun d => Statement.exists_role, fun role d hd => ?_⟩
  obtain ⟨b, -, -, planned, -⟩ := Op.compile_steps compiled
  cases spec with
  | read r => exact (r.plan_solid planned).isHollow_iff hd
  | mutation m =>
    obtain ⟨_, checked, planned⟩ := bind_eq_ok.mp planned
    cases m with
    | write w =>
      obtain ⟨id, steps, rfl⟩ := built
      exact ((Write.Filled.start id).applyAll steps).planned_isHollow checked planned hd
    | delete x => exact (x.plan_solid planned).isHollow_iff hd
    | counter x => exact (x.plan_solid planned).isHollow_iff hd

/-- An update gives null for a list of nothing, and leaves a map alone for which there are no values. -/
theorem update_of_nothing :
    let id : TableId := ⟨"k", "a"⟩
    let world : World Script := World.new {} { tables := [⟨id, [⟨"id", .int, .partitionKey⟩,
      ⟨"names", .list .text, .regular⟩, ⟨"tags", .set .text, .regular⟩,
      ⟨"marks", .map .text .int, .regular⟩]⟩] }
    let spec : Specification := .mutation (.write (.applyAll { table := id }
      [.key "id" (.int 1), .value "names" (.list []), .addToSet "tags" (.text "new"),
        .put "marks" (.text "x") .null]))
    ∃ c v, spec.Built ∧ (Op.compile spec {}).run world = (.ok c, v) ∧
      c.text = "UPDATE k.a SET names = ?, tags = tags + ? WHERE id = ?" ∧
      c.values = [.null, .set [.text "new"], .int 1] ∧
      ∀ role d, (role, d) ∈ c.statement.bound → (d.isHollow = true ↔ spec.Empties role c.statement) := by
  intro id world spec
  obtain ⟨c, v, compiled, text, values⟩ : ∃ c v, (Op.compile spec {}).run world = (.ok c, v) ∧
      c.text = "UPDATE k.a SET names = ?, tags = tags + ? WHERE id = ?" ∧
      c.values = [.null, .set [.text "new"], .int 1] :=
    ⟨_, _, rfl, by decide +kernel, by decide +kernel⟩
  have built : spec.Built := ⟨id, _, rfl⟩
  exact ⟨c, v, built, compiled, text, values, (compiled_isHollow built compiled).2⟩

/-- Where the row is made, the map goes as an empty one. -/
theorem insertion_of_nothing :
    let id : TableId := ⟨"k", "a"⟩
    let world : World Script := World.new {} { tables := [⟨id, [⟨"id", .int, .partitionKey⟩,
      ⟨"marks", .map .text .int, .regular⟩]⟩] }
    let spec : Specification := .mutation (.write (.applyAll { table := id }
      [.value "id" (.int 1), .put "marks" (.text "x") .null]))
    ∃ c v, spec.Built ∧ (Op.compile spec {}).run world = (.ok c, v) ∧
      c.text = "INSERT INTO k.a (id, marks) VALUES (?, ?)" ∧ c.values = [.int 1, .map []] ∧
      ∃ d ∈ c.values, d.isHollow = true := by
  exact ⟨_, _, ⟨_, _, rfl⟩, rfl, by decide +kernel, by decide +kernel, .map [], by decide +kernel, rfl⟩

end WideColumn
