import WideColumn.Proofs.Plan.Restrictions

/-!
What a compiled write has been checked for. Whatever it names is declared, and whatever it gives converts
to the type declared for it. Only what is dropped has not been checked: in an update the plain values for
columns of the primary key, and map entries without a value.
-/
namespace WideColumn

open Outcome

namespace Binder

variable {b : Binder} {n : String} {d : Datum}

/-- The value has a form of the type. -/
def Converts (b : Binder) (n : String) (v : Value) (type : ColumnType) : Prop :=
  ∃ d, b.convert v n type = .ok d ∧ Conforms b.entry.id.keyspace b.types d type

/-- The column is declared, and each of the values converts to its type. -/
def Takes (b : Binder) (n : String) (vs : List Value) : Prop :=
  ∃ k, b.column n = .ok k ∧ ∀ v ∈ vs, b.Converts n v k.type

/-- The column is declared as a collection of that kind, and each of the elements converts to the type of
its elements. -/
def TakesElements (b : Binder) (kind : ColumnType → ColumnType) (n : String) (vs : List Value) : Prop :=
  ∃ k element, b.column n = .ok k ∧ k.type = kind element ∧ ∀ v ∈ vs, b.Converts n v element

/-- The column is declared as a map, and keys and values of the entries convert to its types. -/
def TakesEntries (b : Binder) (n : String) (es : List (Value × Value)) : Prop :=
  ∃ k key value, b.column n = .ok k ∧ k.type = .map key value ∧
    ∀ e ∈ es, b.Converts n e.1 key ∧ b.Converts n e.2 value

theorem converts_of_ok {v : Value} {type : ColumnType} (h : b.convert v n type = .ok d) :
    b.Converts n v type := ⟨d, h, convert_conforms v h⟩

theorem takes_of_bind {v : Value} (h : b.bind n v = .ok d) : b.Takes n [v] := by
  obtain ⟨k, hk, converted⟩ := bind_eq_ok.mp h
  exact ⟨k, hk, List.forall_mem_singleton.mpr (converts_of_ok converted)⟩

theorem converts_of_items {vs : List Value} {type : ColumnType} {items : List Datum}
    (h : b.convertItems vs n type = .ok items) : ∀ v ∈ vs, b.Converts n v type := by
  intro v hv
  rw [convertItems_eq_mapM] at h
  obtain ⟨d, -, converted⟩ := exists_of_mapM h hv
  exact converts_of_ok converted

theorem takes_of_bindSet {vs : SortedSet Value} (h : b.bindSet n vs = .ok d) :
    b.TakesElements .set n vs.toList := by
  obtain ⟨k, element, items, hk, type, converted, -⟩ := bindSet_eq_ok.mp h
  exact ⟨k, element, hk, type, converts_of_items converted⟩

theorem takes_of_bindList {vs : List Value} (h : b.bindList n vs = .ok d) :
    b.TakesElements .list n vs := by
  obtain ⟨k, element, items, hk, type, converted, -⟩ := bindList_eq_ok.mp h
  exact ⟨k, element, hk, type, converts_of_items converted⟩

theorem TakesElements.of_subset {kind : ColumnType → ColumnType} {us vs : List Value}
    (h : b.TakesElements kind n vs) (some : us ⊆ vs) : b.TakesElements kind n us := by
  obtain ⟨k, element, hk, type, converts⟩ := h
  exact ⟨k, element, hk, type, fun v hv => converts v (some hv)⟩

theorem takes_of_bindMap {es : SortedMap Value Value} (h : b.bindMap n es = .ok d) :
    b.TakesEntries n (es.toList.filter fun e => !e.2.isNull) := by
  obtain ⟨k, key, value, items, hk, type, converted, -⟩ := bindMap_eq_ok.mp h
  refine ⟨k, key, value, hk, type, fun e he => ?_⟩
  rw [convertEntries_eq_mapM] at converted
  obtain ⟨item, -, converted⟩ := exists_of_mapM converted he
  simp only [bind_eq_ok] at converted
  obtain ⟨dk, keyed, dv, valued, -⟩ := converted
  exact ⟨converts_of_ok keyed, converts_of_ok valued⟩

theorem Becomes.takes {c : Clause} {r : Relation} (h : b.Becomes c r) : b.Takes c.column c.values := by
  cases h with
  | compare bound => exact takes_of_bind bound
  | isIn some each =>
    rename_i n vs ds
    have taken (v : Value) (hv : v ∈ vs) : b.Takes n [v] := by
      obtain ⟨d, -, bound⟩ := exists_of_forall₂ each hv
      exact takes_of_bind bound
    obtain ⟨first, rest, rfl⟩ := List.exists_cons_of_ne_nil some
    obtain ⟨k, hk, -⟩ := taken first List.mem_cons_self
    refine ⟨k, hk, fun v hv => ?_⟩
    obtain ⟨k', hk', converts⟩ := taken v hv
    cases hk.symm.trans hk'
    exact converts v List.mem_cons_self

end Binder

/-- Every value of the write has a form of the type declared for it, except those that an update drops. -/
structure Write.Checked (w : Write) (b : Binder) (kind : StatementKind) : Prop where
  key : ∀ n x, w.keys.get? n = some x → b.Takes n [x]
  value : ∀ n x, w.values.get? n = some x → b.Takes n [x] ∨
    kind = .update ∧ ∃ k, b.column n = .ok k ∧ k.isPrimaryKey = true
  condition : ∀ c ∈ w.conditions ++ w.onlyIf, b.Takes c.column c.values
  setAdd : ∀ n vs, w.setAdds.get? n = some vs → b.TakesElements .set n vs.toList
  setRemove : ∀ n vs, w.setRemoves.get? n = some vs → b.TakesElements .set n vs.toList
  listPrepend : ∀ n vs, w.listPrepends.get? n = some vs → b.TakesElements .list n vs
  listAppend : ∀ n vs, w.listAppends.get? n = some vs → b.TakesElements .list n vs
  listRemove : ∀ n vs, w.listRemoves.get? n = some vs → b.TakesElements .list n vs
  mapPut : ∀ n es, w.mapPuts.get? n = some es → b.TakesEntries n (es.toList.filter fun e => !e.2.isNull)

namespace Write

variable {w : Write} {b : Binder}

private theorem not_given {α : Type} {m : SortedMap String α} (h : m.isEmpty = true) {n : String} {a : α}
    (given : m.get? n = some a) : False := by
  have named := SortedMap.mem_keys.mpr ⟨a, given⟩
  rw [SortedMap.keys_eq_nil h] at named
  cases named

theorem insertion_checked {s : Insertion} (h : w.insertion b = .ok s) (anywhere : w.conditions = []) :
    w.Checked b .insert := by
  obtain ⟨-, onlyIf, setRemoves, listRemoves, -⟩ := insertion_parts h
  have bound (n : String) := insertion_bound h (n := n)
  -- both ends of a list are bound as one
  have ends {n : String} (named : n ∈ w.listPrepends.keys ∨ n ∈ w.listAppends.keys) :
      b.TakesElements .list n ((w.listPrepends.get? n).getD [] ++ (w.listAppends.get? n).getD []) := by
    obtain ⟨-, -, -, listed, -⟩ := bound n
    obtain ⟨d, hd⟩ := listed named
    exact Binder.takes_of_bindList hd
  constructor
  case key =>
    intro n x given
    obtain ⟨d, hd⟩ := (bound n).1 x given
    exact Binder.takes_of_bind hd
  case value =>
    intro n x given
    obtain ⟨d, hd⟩ := (bound n).2.1 x given
    exact .inl (Binder.takes_of_bind hd)
  case condition =>
    intro c hc
    rw [anywhere, onlyIf] at hc
    cases hc
  case setAdd =>
    intro n vs given
    obtain ⟨d, hd⟩ := (bound n).2.2.1 vs given
    exact Binder.takes_of_bindSet hd
  case setRemove => exact fun n vs given => (not_given setRemoves given).elim
  case listPrepend =>
    intro n vs given
    refine (ends (.inl (SortedMap.mem_keys.mpr ⟨vs, given⟩))).of_subset ?_
    rw [given]
    exact List.subset_append_left _ _
  case listAppend =>
    intro n vs given
    refine (ends (.inr (SortedMap.mem_keys.mpr ⟨vs, given⟩))).of_subset ?_
    rw [given]
    exact List.subset_append_right _ _
  case listRemove => exact fun n vs given => (not_given listRemoves given).elim
  case mapPut =>
    intro n es given
    obtain ⟨d, hd⟩ := (bound n).2.2.2.2 es given
    exact Binder.takes_of_bindMap hd

theorem rowUpdate_checked {s : RowUpdate} (h : w.rowUpdate b = .ok s)
    (aimed : w.keys.isEmpty = false ∨ w.conditions.isEmpty = false) : w.Checked b .update := by
  obtain ⟨-, -, assigned, related, guarded⟩ := rowUpdate_parts h
  obtain ⟨_, _, _, _, _, _, _, plain, setAdds, setRemoves, listPrepends, listAppends, listRemoves, mapPuts,
    -⟩ := assignments_parts assigned
  have restriction (c : Clause)
      (hc : c ∈ w.keys.toList.map (fun key => .compare key.1 .eq key.2) ++ w.conditions) :
      b.Takes c.column c.values := by
    obtain ⟨r, -, becomes⟩ := exists_of_forall₂ (Binder.relations_restrict related aimed).each hc
    exact becomes.takes
  constructor
  case key =>
    intro n x given
    have keyed : (n, x) ∈ w.keys.toList := SortedMap.mem_toList.mpr given
    exact restriction (.compare n .eq x) (List.mem_append_left _ (List.mem_map.mpr ⟨_, keyed, rfl⟩))
  case value =>
    intro n x given
    obtain ⟨k, hk, key | ⟨d, hd⟩⟩ := plainAssignments_bound plain given
    · exact .inr ⟨rfl, k, hk, key⟩
    · exact .inl (Binder.takes_of_bind hd)
  case condition =>
    intro c hc
    obtain hc | hc := List.mem_append.mp hc
    · exact restriction c (List.mem_append_right _ hc)
    · obtain ⟨r, -, becomes⟩ := exists_of_forall₂ (Binder.conditions_become guarded) hc
      exact becomes.takes
  case setAdd =>
    intro n vs given
    obtain ⟨d, hd⟩ := assignEach_bound setAdds given
    exact Binder.takes_of_bindSet hd
  case setRemove =>
    intro n vs given
    obtain ⟨d, hd⟩ := assignEach_bound setRemoves given
    exact Binder.takes_of_bindSet hd
  case listPrepend =>
    intro n vs given
    obtain ⟨d, hd⟩ := assignEach_bound listPrepends given
    exact Binder.takes_of_bindList hd
  case listAppend =>
    intro n vs given
    obtain ⟨d, hd⟩ := assignEach_bound listAppends given
    exact Binder.takes_of_bindList hd
  case listRemove =>
    intro n vs given
    obtain ⟨d, hd⟩ := assignEach_bound listRemoves given
    exact Binder.takes_of_bindList hd
  case mapPut =>
    intro n es given
    obtain ⟨d, hd⟩ := assignEach_bound mapPuts given
    exact Binder.takes_of_bindMap hd

end Write

variable {σ : Type} [Store σ] {w : Write} {ctx : Context} {c : Compiled} {u v : World σ}

/-- No value that a compiled write has a use for is of a wrong type, and all its columns are declared. -/
theorem compile_checks (h : (Op.compile (.mutation (.write w)) ctx).run u = (.ok c, v)) :
    ∃ b x, (Op.binder w.table).run u = (.ok b, x) ∧ w.Checked b c.kind := by
  obtain ⟨b, x, hb, checked, planned⟩ := Mutation.compiled h
  refine ⟨b, x, hb, ?_⟩
  obtain ⟨anywhere, s, inserted, same⟩ | ⟨-, aimed, s, updated, same⟩ := Write.plan_cases checked planned
  · rw [Compiled.kind, Compiled.statement, same]
    exact Write.insertion_checked inserted anywhere
  · rw [Compiled.kind, Compiled.statement, same]
    exact Write.rowUpdate_checked updated aimed

/-- Every group of a write, with values of all the types that become another in the store. -/
theorem update_checked :
    let id : TableId := ⟨"k", "a"⟩
    let world : World Script := World.new {} { tables := [⟨id, [⟨"id", .bigint, .partitionKey⟩,
      ⟨"name", .text, .regular⟩, ⟨"tags", .set .text, .regular⟩, ⟨"log", .list .double, .regular⟩,
      ⟨"marks", .map .text .int, .regular⟩]⟩] }
    let w : Write := {
      table := id
      keys := .ofList [("id", .int 1)]
      conditions := [.compare "name" .ne .null]
      values := .ofList [("id", .int 2), ("name", .enum "NEW")]
      setAdds := .ofList [("tags", .ofList [.text "b"])]
      setRemoves := .ofList [("tags", .ofList [.enum "A"])]
      listPrepends := .ofList [("log", [.float ⟨0⟩])]
      mapPuts := .ofList [("marks", .ofList [(.text "x", .int 1), (.text "y", .null)])]
      onlyIf := [.isIn "name" [.text "old", .enum "OLD"]] }
    ∃ c v, (Op.compile (.mutation (.write w)) {}).run world = (.ok c, v) ∧ c.kind = .update ∧
      ∃ b x, (Op.binder w.table).run world = (.ok b, x) ∧ w.Checked b c.kind := by
  intro id world w
  obtain ⟨c, v, compiled, kind⟩ : ∃ c v, (Op.compile (.mutation (.write w)) {}).run world = (.ok c, v) ∧
      c.kind = .update := ⟨_, _, rfl, rfl⟩
  exact ⟨c, v, compiled, kind, compile_checks compiled⟩

/-- What is dropped may be of any type: a plain value for a key of an update, and the key of an entry
without a value. -/
theorem dropped_unchecked :
    let id : TableId := ⟨"k", "a"⟩
    let world : World Script := World.new {} { tables := [⟨id, [⟨"id", .int, .partitionKey⟩,
      ⟨"marks", .map .text .int, .regular⟩]⟩] }
    let entries : SortedMap Value Value := .ofList [(.text "x", .int 5), (.int 1, .null)]
    let w : Write := {
      table := id
      keys := .ofList [("id", .int 1)]
      values := .ofList [("id", .text "one")]
      mapPuts := .ofList [("marks", entries)] }
    ∃ b x c v, (Op.binder id).run world = (.ok b, x) ∧
      (Op.compile (.mutation (.write w)) {}).run world = (.ok c, v) ∧
      c.text = "UPDATE k.a SET marks = marks + ? WHERE id = ?" ∧
      w.values.get? "id" = some (.text "one") ∧ ¬ b.Takes "id" [.text "one"] ∧
      w.mapPuts.get? "marks" = some entries ∧ ¬ b.TakesEntries "marks" entries.toList := by
  intro id world entries w
  obtain ⟨b, x, c, v, hb, compiled, text, key, map⟩ : ∃ b x c v, (Op.binder id).run world = (.ok b, x) ∧
      (Op.compile (.mutation (.write w)) {}).run world = (.ok c, v) ∧
      c.text = "UPDATE k.a SET marks = marks + ? WHERE id = ?" ∧
      b.column "id" = .ok ⟨"id", .int, .partitionKey⟩ ∧
      b.column "marks" = .ok ⟨"marks", .map .text .int, .regular⟩ :=
    ⟨_, _, _, _, rfl, rfl, by decide +kernel, rfl, rfl⟩
  refine ⟨b, x, c, v, hb, compiled, text, by decide +kernel, ?_, by decide +kernel, ?_⟩
  · rintro ⟨k, hk, converts⟩
    cases key.symm.trans hk
    obtain ⟨d, hd, -⟩ := converts (.text "one") List.mem_cons_self
    cases hd
  · rintro ⟨k, _, _, hk, type, converts⟩
    cases map.symm.trans hk
    cases type
    obtain ⟨⟨d, hd, -⟩, -⟩ := converts (.int 1, .null) (by decide +kernel)
    cases hd

end WideColumn
