import WideColumn.Proofs.Datum.Conforms
import WideColumn.Proofs.Statement.Row

/-!
What leaves a column without a cell: null, a collection of nothing, and map entries that all lack a
value.
-/
namespace WideColumn

open Outcome

namespace Datum

@[simp] theorem cell_list {items : List Datum} : (list items).cell = none ↔ items = [] := by
  cases items <;> simp [cell]

@[simp] theorem cell_set {items : List Datum} : (set items).cell = none ↔ items = [] := by
  cases items <;> simp [cell]

@[simp] theorem cell_map {entries : List (Datum × Datum)} : (map entries).cell = none ↔ entries = [] := by
  cases entries <;> simp [cell]

end Datum

namespace Value

theorem isNull_iff {v : Value} : v.isNull = true ↔ v = null := by
  cases v <;> simp [isNull]

def isBlank : Value → Bool
  | null => true
  | list items | set items => items.isEmpty
  | map entries => entries.isEmpty
  | _ => false

end Value

namespace Binder

variable {b : Binder} {column name : String} {d : Datum} {v : Value} {type key value : ColumnType}

theorem convertItems_nil {vs : List Value} {ds : List Datum}
    (h : b.convertItems vs column type = .ok ds) : ds = [] ↔ vs = [] := by
  rw [convertItems_eq_mapM] at h
  rw [← List.length_eq_zero_iff, ← (forall₂_mapM h).length_eq, List.length_eq_zero_iff]

theorem convertEntries_nil {es : List (Value × Value)} {ds : List (Datum × Datum)}
    (h : b.convertEntries es column key value = .ok ds) : ds = [] ↔ es = [] := by
  rw [convertEntries_eq_mapM] at h
  rw [← List.length_eq_zero_iff, ← (forall₂_mapM h).length_eq, List.length_eq_zero_iff]

theorem asSet_cell (items : List Datum) : (asSet items).cell = none ↔ items = [] := by
  rw [asSet, Datum.cell_set, List.eq_nil_iff_forall_not_mem, List.eq_nil_iff_forall_not_mem]
  simp only [SortedSet.mem_ofList]

theorem scalar_cell (h : scalar? v type = some d) : d.cell ≠ none := by
  have text {s : String} (h : asciiText s = some d) : d.cell ≠ none := by
    simp only [asciiText, Option.ite_none_right_eq_some, Option.some.injEq] at h
    obtain ⟨-, rfl⟩ := h
    simp [Datum.cell]
  fun_cases scalar? v type <;> simp only [scalar?, Option.some.injEq, reduceCtorEq] at h
  all_goals first
    | exact text h
    | subst h; simp [Datum.cell]

/-- A collection of nothing has no cell, and is not turned away. -/
private theorem collection_cell {α β : Type} {items : List α} {parts : Except Error (List β)}
    {make : List β → Datum} (same : ∀ {ds}, parts = .ok ds → (ds = [] ↔ items = []))
    (made : ∀ ds, (make ds).cell = none ↔ ds = [])
    (h : (if items.isEmpty then .ok .null else return make (← parts)) = .ok d) :
    d.cell = none ↔ items.isEmpty = true := by
  split at h
  · rename_i none
    cases h
    simp [Datum.cell, none]
  · simp only [bind_eq_ok, pure_eq_ok] at h
    obtain ⟨ds, hds, rfl⟩ := h
    rw [made, same hds, List.isEmpty_iff]

theorem convert_cell (h : b.convert v column type = .ok d) : d.cell = none ↔ v.isBlank = true := by
  cases v with
  | null =>
    cases h
    simp [Datum.cell, Value.isBlank]
  | list items =>
    cases type <;> simp only [convert, reduceCtorEq] at h
    case list => exact collection_cell convertItems_nil (fun _ => Datum.cell_list) h
    case set => exact collection_cell convertItems_nil asSet_cell h
  | set items =>
    cases type <;> simp only [convert, reduceCtorEq] at h
    case list =>
      split at h
      · rename_i none
        cases h
        simp [Datum.cell, Value.isBlank, none]
      · cases h
    case set => exact collection_cell convertItems_nil asSet_cell h
  | map entries =>
    cases type <;> simp only [convert, reduceCtorEq] at h
    case map => exact collection_cell convertEntries_nil (fun _ => Datum.cell_map) h
  | fields entries =>
    cases type <;> simp only [convert, reduceCtorEq] at h
    case udt name =>
      split at h
      · cases h
      split at h
      · cases h
      simp only [bind_eq_ok, pure_eq_ok] at h
      obtain ⟨fields, -, rfl⟩ := h
      simp [Datum.cell, Value.isBlank]
  | boolean | int | bigint | float | double | text | enum | bytes | timestamp | uuid =>
    simp only [convert] at h
    split at h
    · rename_i hs
      cases h
      simp [Value.isBlank, scalar_cell hs]
    · cases h

theorem eq_null_of_isBlank (blank : v.isBlank = true) (h : b.convert v column type = .ok d) :
    d = .null := by
  cases v with
  | null =>
    cases h
    rfl
  | list items | set items | map entries =>
    cases type <;> simp_all [Value.isBlank, convert]
  | _ => cases blank

theorem bind_cell (h : b.bind name v = .ok d) : d.cell = none ↔ v.isBlank = true := by
  obtain ⟨c, -, h⟩ := bind_eq_ok.mp h
  exact convert_cell h

theorem bindSet_cell {vs : SortedSet Value} (h : b.bindSet name vs = .ok d) :
    d.cell = none ↔ vs.toList = [] := by
  obtain ⟨c, element, ds, -, -, items, rfl⟩ := bindSet_eq_ok.mp h
  rw [asSet_cell, convertItems_nil items]

theorem bindList_cell {vs : List Value} (h : b.bindList name vs = .ok d) : d.cell = none ↔ vs = [] := by
  obtain ⟨c, element, ds, -, -, items, rfl⟩ := bindList_eq_ok.mp h
  rw [Datum.cell_list, convertItems_nil items]

theorem bindMap_cell {es : SortedMap Value Value} (h : b.bindMap name es = .ok d) :
    d.cell = none ↔ ∀ e ∈ es.toList, e.2.isNull = true := by
  obtain ⟨c, key, value, ds, -, -, entries, rfl⟩ := bindMap_eq_ok.mp h
  rw [Datum.cell_map, convertEntries_nil entries]
  simp

end Binder
end WideColumn
