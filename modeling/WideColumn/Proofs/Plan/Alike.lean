import WideColumn.Proofs.Plan.Restrictions
import WideColumn.Proofs.Statement.Template

/-!
Requests that differ in their values alone. What is planned for them and prepared has one shape, so one
text serves them all.
-/
namespace WideColumn

open Outcome

/-- The relation that the clause becomes, without the values. -/
def Clause.shape : Clause → Relation
  | compare c op _ => .compare c op .null
  | isIn c vs => .isIn c (vs.map fun _ => .null)

section Relations

variable {b : Binder}

theorem Binder.Becomes.shape {c : Clause} {r : Relation} (h : b.Becomes c r) : r.shape = c.shape := by
  cases h with
  | compare => rfl
  | isIn _ each => simp [Relation.shape, Clause.shape, each.length_eq]

theorem Binder.shapes_of_become {cs : List Clause} {rs : List Relation}
    (h : List.Forall₂ b.Becomes cs rs) :
    rs.map Relation.shape = cs.map Clause.shape :=
  map_eq_of_forall₂ (h.imp fun _ _ becomes => becomes.shape)

/-- Equations for keys are told, but for the values, by the columns. -/
theorem Binder.relations_shape {keys : SortedMap String Value} {rs : List Relation}
    (h : b.relations keys [] = .ok rs) :
    rs.map Relation.shape = keys.keys.map fun n => .compare n .eq .null := by
  rw [shapes_of_become (relations_become h), List.append_nil, List.map_map, SortedMap.keys, List.map_map]
  rfl

end Relations

theorem map_const_of_isSome {α α' β : Type} {a : Option α} {a' : Option α'} (h : a.isSome = a'.isSome)
    (x : β) : (a.map fun _ => x) = a'.map fun _ => x := by
  cases a <;> cases a' <;> first | rfl | cases h

theorem ttlOption_isSome {ttl : Option Duration} {seconds : Option Int32}
    (h : ttlOption ttl = .ok seconds) : seconds.isSome = ttl.isSome := by
  cases ttl with
  | none =>
    cases h
    rfl
  | some ttl =>
    rw [ttlOption] at h
    cases made : ttlSeconds ttl with
    | error e =>
      rw [made] at h
      cases h
    | ok n =>
      rw [made] at h
      cases h
      rfl

/-- Lifetimes do not show in a shape. -/
theorem ttlOption_alike {ttl ttl' : Option Duration} {n n' : Option Int32}
    (same : ttl.isSome = ttl'.isSome) (h : ttlOption ttl = .ok n) (h' : ttlOption ttl' = .ok n') :
    (n.map fun _ => (0 : Int32)) = n'.map fun _ => 0 := by
  refine map_const_of_isSome ?_ 0
  rw [ttlOption_isSome h, ttlOption_isSome h', same]

/-- Writes that name the same columns in the same ways. -/
structure Write.Alike (w v : Write) : Prop where
  table : w.table = v.table
  keys : w.keys.keys = v.keys.keys
  values : w.values.keys = v.values.keys
  setAdds : w.setAdds.keys = v.setAdds.keys
  setRemoves : w.setRemoves.keys = v.setRemoves.keys
  listPrepends : w.listPrepends.keys = v.listPrepends.keys
  listAppends : w.listAppends.keys = v.listAppends.keys
  listRemoves : w.listRemoves.keys = v.listRemoves.keys
  mapPuts : w.mapPuts.keys = v.mapPuts.keys
  puts : ∀ n, w.puts n = v.puts n
  ifNotExists : w.ifNotExists = v.ifNotExists
  ttl : w.ttl.isSome = v.ttl.isSome

structure CounterUpdate.Alike (u v : CounterUpdate) : Prop where
  table : u.table = v.table
  keys : u.keys.keys = v.keys.keys
  column : u.column = v.column

structure Deletion.Alike (d e : Deletion) : Prop where
  table : d.table = e.table
  keys : d.keys.keys = e.keys.keys

/-- Reads of the same fields of as many rows by the same keys. -/
structure Read.Alike (r q : Read) : Prop where
  table : r.table = q.table
  columns : r.columns = q.columns
  distinct : r.distinct = q.distinct
  keys : (r.keys.toList.map fun e => (e.1, e.2.length)) = q.keys.toList.map fun e => (e.1, e.2.length)
  limit : r.limit.isSome = q.limit.isSome
  allowFiltering : r.allowFiltering = q.allowFiltering

/-- Specifications of one sort that differ in their values alone. -/
inductive Specification.Alike : Specification → Specification → Prop
  | write {w v : Write} : w.Alike v → Alike (.mutation (.write w)) (.mutation (.write v))
  | counter {u v : CounterUpdate} : u.Alike v → Alike (.mutation (.counter u)) (.mutation (.counter v))
  | delete {d e : Deletion} : d.Alike e → Alike (.mutation (.delete d)) (.mutation (.delete e))
  | read {r q : Read} : r.Alike q → Alike (.read r) (.read q)

namespace Write

variable {w v : Write} {b b' : Binder} {p q : Plan}

theorem insertion_shape_of_alike (alike : w.Alike v) {s t : Insertion} (hs : w.insertion b = .ok s)
    (ht : v.insertion b' = .ok t) : s.shape = t.shape := by
  obtain ⟨table, -, -, -, ifNotExists, ttl, -⟩ := insertion_parts hs
  obtain ⟨table', -, -, -, ifNotExists', ttl', -⟩ := insertion_parts ht
  obtain ⟨-, -, ascending, named⟩ := insertion_names hs
  obtain ⟨-, -, ascending', named'⟩ := insertion_names ht
  have names : s.cells.map Prod.fst = t.cells.map Prod.fst := by
    refine ascending.ext ascending' fun n => ?_
    rw [named, named', mutated, mutated, alike.keys, alike.values, alike.setAdds, alike.setRemoves,
      alike.listPrepends, alike.listAppends, alike.listRemoves, alike.mapPuts]
  have cells : (s.cells.map fun c => (c.1, Datum.null)) = t.cells.map fun c => (c.1, .null) := by
    simpa only [List.map_map, Function.comp_def] using congrArg (List.map fun n => (n, Datum.null)) names
  have ttls := ttlOption_alike alike.ttl ttl ttl'
  rw [Insertion.shape, Insertion.shape, table, table', ifNotExists, ifNotExists', alike.table,
    alike.ifNotExists, cells, ttls]

theorem rowUpdate_shape_of_alike (alike : w.Alike v)
    (columns : ∀ n, b.entry.isPrimaryKey n = b'.entry.isPrimaryKey n)
    (hw : w.conditions = [] ∧ w.onlyIf = []) (hv : v.conditions = [] ∧ v.onlyIf = []) {s t : RowUpdate}
    (hs : w.rowUpdate b = .ok s) (ht : v.rowUpdate b' = .ok t) : s.shape = t.shape := by
  obtain ⟨table, ttl, assigned, related, guarded⟩ := rowUpdate_parts hs
  obtain ⟨table', ttl', assigned', related', guarded'⟩ := rowUpdate_parts ht
  have assignments : s.assignments.map Assignment.shape = t.assignments.map Assignment.shape := by
    rw [assignments_shape assigned, assignments_shape assigned', alike.values, alike.setAdds,
      alike.setRemoves, alike.listPrepends, alike.listAppends, alike.listRemoves, alike.mapPuts,
      funext alike.puts, funext columns]
  have relations : s.relations.map Relation.shape = t.relations.map Relation.shape := by
    rw [hw.1] at related
    rw [hv.1] at related'
    rw [Binder.relations_shape related, Binder.relations_shape related', alike.keys]
  have ttls := ttlOption_alike alike.ttl ttl ttl'
  have guards : s.onlyIf.map Relation.shape = t.onlyIf.map Relation.shape := by
    rw [Binder.shapes_of_become (Binder.conditions_become guarded),
      Binder.shapes_of_become (Binder.conditions_become guarded'), hw.2, hv.2]
  rw [RowUpdate.shape, RowUpdate.shape, table, table', alike.table, ttls, assignments, relations, guards]

/-- Only a write without conditions is prepared. -/
theorem unconditional_of_prepare (h : w.plan b = .ok p) (prepare : p.prepare = true) :
    w.conditions = [] ∧ w.onlyIf = [] := by
  rw [plan] at h
  split at h
  · rename_i inserts
    simp only [bind_eq_ok, pure_eq_ok] at h
    obtain ⟨s, hs, rfl⟩ := h
    obtain ⟨-, onlyIf, -⟩ := insertion_parts hs
    exact ⟨List.isEmpty_iff.mp (Bool.and_eq_true_iff.mp inserts).1, onlyIf⟩
  · simp only [updatePlan, bind_eq_ok, pure_eq_ok] at h
    obtain ⟨s, -, rfl⟩ := h
    simpa [Plan.of] using prepare

theorem isInsertion_of_alike (alike : w.Alike v) (hw : w.conditions = [] ∧ w.onlyIf = [])
    (hv : v.conditions = [] ∧ v.onlyIf = []) : w.isInsertion = v.isInsertion := by
  simp only [isInsertion, hasDeltas, hw, hv, ← SortedMap.isEmpty_keys, alike.keys, alike.setAdds,
    alike.setRemoves, alike.listPrepends, alike.listAppends, alike.listRemoves, alike.mapPuts,
    alike.ifNotExists]

theorem plan_shape_of_alike (alike : w.Alike v)
    (columns : ∀ n, b.entry.isPrimaryKey n = b'.entry.isPrimaryKey n) (hp : w.plan b = .ok p)
    (hq : v.plan b' = .ok q) (pp : p.prepare = true) (pq : q.prepare = true) :
    p.statement.shape = q.statement.shape := by
  have hw := unconditional_of_prepare hp pp
  have hv := unconditional_of_prepare hq pq
  rw [plan] at hp hq
  rw [isInsertion_of_alike alike hw hv] at hp
  split at hp
  · rename_i inserts
    rw [if_pos inserts] at hq
    simp only [bind_eq_ok, pure_eq_ok] at hp hq
    obtain ⟨s, hs, rfl⟩ := hp
    obtain ⟨t, ht, rfl⟩ := hq
    exact congrArg Statement.insert (insertion_shape_of_alike alike hs ht)
  · rename_i updates
    rw [if_neg updates] at hq
    simp only [updatePlan, bind_eq_ok, pure_eq_ok] at hp hq
    obtain ⟨s, hs, rfl⟩ := hp
    obtain ⟨t, ht, rfl⟩ := hq
    exact congrArg Statement.update (rowUpdate_shape_of_alike alike columns hw hv hs ht)

end Write

section Others

variable {b : Binder} {p : Plan}

theorem CounterUpdate.plan_shape {u : CounterUpdate} (h : u.plan b = .ok p) (prepare : p.prepare = true) :
    p.statement.shape =
      .counter ⟨u.table, u.column, 0, u.keys.keys.map fun n => .compare n .eq .null⟩ := by
  simp only [plan, bind_eq_ok] at h
  obtain ⟨c, -, h⟩ := h
  split at h
  · cases h
  simp only [bind_eq_ok, pure_eq_ok] at h
  obtain ⟨rs, hr, rfl⟩ := h
  have anywhere : u.conditions = [] := by simpa [Plan.of] using prepare
  rw [anywhere] at hr
  exact congrArg (fun rs => Statement.counter ⟨u.table, u.column, 0, rs⟩) (Binder.relations_shape hr)

theorem Deletion.plan_shape {d : Deletion} (h : d.plan b = .ok p) (prepare : p.prepare = true) :
    p.statement.shape =
      .delete ⟨d.table, d.keys.keys.map fun n => .compare n .eq .null, false, []⟩ := by
  simp only [plan, bind_eq_ok, pure_eq_ok] at h
  obtain ⟨rs, hr, qs, hq, rfl⟩ := h
  obtain ⟨anywhere, always, unguarded⟩ : d.conditions = [] ∧ d.onlyIf = [] ∧ d.ifExists = false := by
    simpa [Plan.of] using prepare
  rw [anywhere] at hr
  rw [always] at hq
  cases hq
  simp only [Plan.of, Statement.shape, RowDelete.shape, Binder.relations_shape hr, unguarded]
  rfl

end Others

namespace Read

variable {b : Binder} {r : Read} {p : Plan}

/-- A key of one value is compared, one of more values has to be among them. -/
def keyShape (key : String × Nat) : Relation :=
  if key.2 = 1 then .compare key.1 .eq .null else .isIn key.1 (List.replicate key.2 .null)

theorem keyRelation_shape {key : String × List Value} {relation : Relation}
    (h : keyRelation b key = .ok relation) : relation.shape = keyShape (key.1, key.2.length) := by
  obtain ⟨n, _ | ⟨v, _ | ⟨u, vs⟩⟩⟩ := key
  · cases h
  · simp only [keyRelation, bind_eq_ok, pure_eq_ok] at h
    obtain ⟨d, -, rfl⟩ := h
    rfl
  · simp only [keyRelation, bind_eq_ok, pure_eq_ok] at h
    obtain ⟨ds, hd, rfl⟩ := h
    simp [Relation.shape, keyShape, ← (forall₂_mapM hd).length_eq]

theorem limitOption_isSome {limit : Option Nat} {n : Option Int32} (h : limitOption limit = .ok n) :
    n.isSome = limit.isSome := by
  cases limit with
  | none =>
    cases h
    rfl
  | some limit =>
    rw [limitOption] at h
    split at h
    · cases h
    split at h
    · cases h
      rfl
    · cases h

theorem projection_eq {projection : Option (List (String × Bool))} (h : r.projection b = .ok projection) :
    projection = r.columns.map SortedMap.toList := by
  rw [Read.projection] at h
  split at h
  · rename_i all
    cases h
    rw [all]
    rfl
  · rename_i columns some
    obtain ⟨_, -, made⟩ := bind_eq_ok.mp h
    cases made
    rw [some]
    rfl

theorem plan_shape (h : r.plan b = .ok p) (prepare : p.prepare = true) : p.statement.shape =
    .select ⟨r.table, r.distinct, r.columns.map SortedMap.toList,
      (r.keys.toList.map fun e => (e.1, e.2.length)).map keyShape, r.limit.map fun _ => 0,
      r.allowFiltering⟩ := by
  simp only [plan, selection, bind_eq_ok, pure_eq_ok] at h
  obtain ⟨s, ⟨projection, hp, ks, hk, cs, hc, l, hl, rfl⟩, rfl⟩ := h
  have anywhere : r.conditions = [] := List.isEmpty_iff.mp prepare
  rw [anywhere] at hc
  cases hc
  have keys : (ks ++ []).map Relation.shape =
      (r.keys.toList.map fun e => (e.1, e.2.length)).map keyShape := by
    rw [List.append_nil, List.map_map]
    exact map_eq_of_forall₂ ((forall₂_mapM hk).imp fun _ _ => keyRelation_shape)
  simp only [Statement.shape, Selection.shape, projection_eq hp, map_const_of_isSome (limitOption_isSome hl)]
  exact congrArg (fun rs => Statement.select ⟨r.table, r.distinct, _, rs, _, r.allowFiltering⟩) keys

end Read

/-- What is planned for specifications that differ in their values alone has one shape, if it is to be
prepared. -/
theorem Specification.plan_shape_of_alike {q r : Specification} (alike : q.Alike r) {b b' : Binder}
    (columns : b.entry.table.columns = b'.entry.table.columns) {p p' : Plan} (hp : q.plan b = .ok p)
    (hp' : r.plan b' = .ok p') (prepare : p.prepare = true) (prepare' : p'.prepare = true) :
    p.statement.shape = p'.statement.shape := by
  have keys (n : String) : b.entry.isPrimaryKey n = b'.entry.isPrimaryKey n := by
    rw [TableEntry.isPrimaryKey, TableEntry.isPrimaryKey, TableEntry.column?, TableEntry.column?, columns]
  cases alike with
  | write alike =>
    obtain ⟨_, -, planned⟩ := bind_eq_ok.mp hp
    obtain ⟨_, -, planned'⟩ := bind_eq_ok.mp hp'
    exact Write.plan_shape_of_alike alike keys planned planned' prepare prepare'
  | counter alike =>
    obtain ⟨_, -, planned⟩ := bind_eq_ok.mp hp
    obtain ⟨_, -, planned'⟩ := bind_eq_ok.mp hp'
    rw [CounterUpdate.plan_shape planned prepare, CounterUpdate.plan_shape planned' prepare', alike.table,
      alike.column, alike.keys]
  | delete alike =>
    obtain ⟨_, -, planned⟩ := bind_eq_ok.mp hp
    obtain ⟨_, -, planned'⟩ := bind_eq_ok.mp hp'
    rw [Deletion.plan_shape planned prepare, Deletion.plan_shape planned' prepare', alike.table,
      alike.keys]
  | read alike =>
    rw [Read.plan_shape hp prepare, Read.plan_shape hp' prepare', alike.table, alike.distinct,
      alike.columns, alike.keys, map_const_of_isSome alike.limit, alike.allowFiltering]

end WideColumn
