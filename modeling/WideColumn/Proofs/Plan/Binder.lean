import WideColumn.Plan.Binder
import WideColumn.Proofs.Outcome

/-!
What successful binding comes to: a column of a fitting type, and parts that convert one by one.
-/
namespace WideColumn

def ColumnType.isCollection : ColumnType → Bool
  | list _ | set _ | map _ _ => true
  | _ => false

theorem ColumnType.not_counter_of_collection {type : ColumnType} (h : type.isCollection = true) :
    type.isCounter = false := by
  cases type <;> first | rfl | cases h

namespace Binder

open Outcome

variable {b : Binder} {column name : String} {d : Datum}

theorem isPrimaryKey_of_column {c : Column} (h : b.column name = .ok c) :
    b.entry.isPrimaryKey name = c.isPrimaryKey := by
  rw [Binder.column, TableEntry.column] at h
  split at h
  · rename_i found
    cases h
    rw [TableEntry.isPrimaryKey, found]
    rfl
  · cases h

theorem convertItems_eq_mapM (vs : List Value) (type : ColumnType) :
    b.convertItems vs column type = vs.mapM fun v => b.convert v column type := by
  induction vs with
  | nil =>
    rw [convertItems]
    rfl
  | cons v vs ih => rw [convertItems, ih, List.mapM_cons]

theorem convertEntries_eq_mapM (es : List (Value × Value)) (key value : ColumnType) :
    b.convertEntries es column key value = es.mapM fun e =>
      return (← b.convert e.1 column key, ← b.convert e.2 column value) := by
  induction es with
  | nil =>
    rw [convertEntries]
    rfl
  | cons e es ih => simp [convertEntries, ih, List.mapM_cons]

theorem bindSet_eq_ok {vs : SortedSet Value} :
    b.bindSet name vs = .ok d ↔ ∃ c element items, b.column name = .ok c ∧ c.type = .set element ∧
      b.convertItems vs.toList name element = .ok items ∧ asSet items = d := by
  rw [bindSet, bind_eq_ok]
  refine exists_congr fun c => ?_
  cases type : c.type <;> simp [bind_eq_ok, pure_eq_ok, -bind_pure_comp]

theorem bindList_eq_ok {vs : List Value} :
    b.bindList name vs = .ok d ↔ ∃ c element items, b.column name = .ok c ∧ c.type = .list element ∧
      b.convertItems vs name element = .ok items ∧ .list items = d := by
  rw [bindList, bind_eq_ok]
  refine exists_congr fun c => ?_
  cases type : c.type <;> simp [bind_eq_ok, pure_eq_ok, -bind_pure_comp]

theorem bindMap_eq_ok {es : SortedMap Value Value} :
    b.bindMap name es = .ok d ↔ ∃ c key value items, b.column name = .ok c ∧ c.type = .map key value ∧
      b.convertEntries (es.toList.filter fun e => !e.2.isNull) name key value = .ok items ∧
      .map items = d := by
  rw [bindMap, bind_eq_ok]
  refine exists_congr fun c => ?_
  cases type : c.type <;> simp [bind_eq_ok, pure_eq_ok, -bind_pure_comp]

theorem bindSet_collection {vs : SortedSet Value} (h : b.bindSet name vs = .ok d) :
    ∃ c, b.column name = .ok c ∧ c.type.isCollection = true := by
  obtain ⟨c, element, -, hc, type, -, -⟩ := bindSet_eq_ok.mp h
  exact ⟨c, hc, by rw [type]; rfl⟩

theorem bindList_collection {vs : List Value} (h : b.bindList name vs = .ok d) :
    ∃ c, b.column name = .ok c ∧ c.type.isCollection = true := by
  obtain ⟨c, element, -, hc, type, -, -⟩ := bindList_eq_ok.mp h
  exact ⟨c, hc, by rw [type]; rfl⟩

theorem bindMap_collection {es : SortedMap Value Value} (h : b.bindMap name es = .ok d) :
    ∃ c, b.column name = .ok c ∧ c.type.isCollection = true := by
  obtain ⟨c, key, value, -, hc, type, -, -⟩ := bindMap_eq_ok.mp h
  exact ⟨c, hc, by rw [type]; rfl⟩

end Binder
end WideColumn
