import WideColumn.Proofs.Collection.SortedMap
import WideColumn.Proofs.Plan.Binder
import WideColumn.Proofs.Schema.Reach

/-!
Values that meet a type without a definition. With definitions for all the types that columns and fields
mention, there are none.
-/
namespace WideColumn

open Outcome

/-- It may fail, but not because a type has no definition. -/
def Spares {α : Type} (x : Except Error α) : Prop :=
  ∀ keyspace name, x ≠ .error (.typeNotFound keyspace name)

namespace Spares

variable {α β : Type}

theorem ok (a : α) : Spares (.ok a) := fun _ _ failed => by cases failed

theorem bind {x : Except Error α} {f : α → Except Error β} (hx : Spares x) (hf : ∀ a, Spares (f a)) :
    Spares (x >>= f) := by
  intro keyspace name failed
  obtain failed | ⟨a, -, failed⟩ := bind_eq_error.mp failed
  · exact hx keyspace name failed
  · exact hf a keyspace name failed

theorem bind_pure {x : Except Error α} (hx : Spares x) (f : α → β) :
    Spares (x >>= fun a => Pure.pure (f a)) :=
  hx.bind fun a => ok (f a)

end Spares

/-- All types that it mentions have a definition. -/
def ColumnType.DefinedIn (types : TypeDefs) (t : ColumnType) : Prop :=
  ∀ name, t.Mentions name → (types.lookup name).isSome

/-- All types that are mentioned in a definition have one too. -/
def TypeDefs.Closed (types : TypeDefs) : Prop :=
  ∀ d ∈ types, ∀ f ∈ d.2.fields, f.2.DefinedIn types

namespace Binder

variable {b : Binder}

private theorem mismatch_spares {α : Type} (column : String) (type : ColumnType) (actual : String) :
    Spares (.error (b.mismatch column type actual) : Except Error α) := by
  intro keyspace name failed
  rw [mismatch] at failed
  cases failed

private theorem unknownColumn_spares {α : Type} (table column : String) :
    Spares (.error (.unknownColumn table column) : Except Error α) := fun _ _ failed => by cases failed

/-- Fields are read by converters of what is given, or are null. -/
private theorem takeFields_spares {given : List (String × (String → ColumnType → Except Error Datum))}
    (hg : ∀ g ∈ given, ∀ path type, type.DefinedIn b.types → Spares (g.2 path type))
    (column : String) : (declared : List (String × ColumnType)) →
    (∀ f ∈ declared, f.2.DefinedIn b.types) → Spares (takeFields column given declared)
  | [], _ => .ok []
  | (field, type) :: rest, known => by
    obtain ⟨first, known⟩ := List.forall_mem_cons.mp known
    have others := takeFields_spares hg column rest known
    rw [takeFields]
    split
    · rename_i convert found
      exact (hg _ (mem_of_lookup found) _ type first).bind fun _ => others.bind_pure _
    · exact others.bind_pure _

mutual
theorem convert_spares (closed : b.types.Closed) : (v : Value) → (column : String) →
    (type : ColumnType) → type.DefinedIn b.types → Spares (b.convert v column type)
  | .null, _, _, _ => by
    rw [convert]
    exact .ok _
  | .list items, column, type, known => by
    cases type <;> simp only [convert] <;> try exact mismatch_spares _ _ _
    case list element | set element =>
      split
      · exact .ok _
      · exact (convertItems_spares closed items column element known).bind_pure _
  | .set items, column, type, known => by
    cases type <;> simp only [convert] <;> try exact mismatch_spares _ _ _
    case list =>
      split
      · exact .ok _
      · exact mismatch_spares _ _ _
    case set element =>
      split
      · exact .ok _
      · exact (convertItems_spares closed items column element known).bind_pure _
  | .map entries, column, type, known => by
    cases type <;> simp only [convert] <;> try exact mismatch_spares _ _ _
    case map key value =>
      split
      · exact .ok _
      · exact (convertEntries_spares closed entries column key value (fun n h => known n (.inl h))
          fun n h => known n (.inr h)).bind_pure _
  | .fields entries, column, type, known => by
    cases type <;> simp only [convert] <;> try exact mismatch_spares _ _ _
    case udt name =>
      split
      · -- the one place where a definition may be missing
        rename_i missing
        have there := known name rfl
        rw [missing] at there
        cases there
      · rename_i definition found
        split
        · exact unknownColumn_spares _ _
        · exact (takeFields_spares (converters_spares closed entries) column definition.fields
            (closed _ (mem_of_lookup found))).bind_pure _
  | .boolean v, column, type, _
  | .int v, column, type, _
  | .bigint v, column, type, _
  | .float v, column, type, _
  | .double v, column, type, _
  | .text v, column, type, _
  | .enum v, column, type, _
  | .bytes v, column, type, _
  | .timestamp v, column, type, _
  | .uuid v, column, type, _ => by
    simp only [convert]
    split
    · exact .ok _
    · exact mismatch_spares _ _ _

theorem convertItems_spares (closed : b.types.Closed) : (vs : List Value) → (column : String) →
    (type : ColumnType) → type.DefinedIn b.types → Spares (b.convertItems vs column type)
  | [], _, _, _ => by
    rw [convertItems]
    exact .ok _
  | v :: vs, column, type, known => by
    rw [convertItems]
    exact (convert_spares closed v column type known).bind fun _ =>
      (convertItems_spares closed vs column type known).bind_pure _

theorem convertEntries_spares (closed : b.types.Closed) : (es : List (Value × Value)) →
    (column : String) → (key value : ColumnType) → key.DefinedIn b.types → value.DefinedIn b.types →
    Spares (b.convertEntries es column key value)
  | [], _, _, _, _, _ => by
    rw [convertEntries]
    exact .ok _
  | (k, v) :: es, column, key, value, keys, values => by
    rw [convertEntries]
    exact (convert_spares closed k column key keys).bind fun _ =>
      (convert_spares closed v column value values).bind fun _ =>
        (convertEntries_spares closed es column key value keys values).bind_pure _

theorem converters_spares (closed : b.types.Closed) : (es : List (String × Value)) →
    ∀ g ∈ b.converters es, ∀ path type, type.DefinedIn b.types → Spares (g.2 path type)
  | [] => by
    rw [converters]
    exact List.forall_mem_nil _
  | (_, v) :: es => by
    rw [converters]
    exact List.forall_mem_cons.mpr
      ⟨fun path type known => convert_spares closed v path type known, converters_spares closed es⟩
end

/-- All types of the table, and all that they depend on, have a definition. -/
structure Complete (b : Binder) : Prop where
  columns : ∀ c ∈ b.entry.table.columns, c.type.DefinedIn b.types
  closed : b.types.Closed

/-- Whatever is bound to a column, it meets no type without a definition. -/
structure NeverLost (b : Binder) : Prop where
  bind : ∀ column v, Spares (b.bind column v)
  bindSet : ∀ column vs, Spares (b.bindSet column vs)
  bindList : ∀ column vs, Spares (b.bindList column vs)
  bindMap : ∀ column es, Spares (b.bindMap column es)

/-- A column that is not there is an error of another sort. -/
private theorem Complete.column_bind {β : Type} (complete : b.Complete) (name : String)
    {f : Column → Except Error β} (hf : ∀ c : Column, c.type.DefinedIn b.types → Spares (f c)) :
    Spares (b.column name >>= f) := by
  rw [column, TableEntry.column]
  split
  · rename_i c found
    refine hf c (complete.columns c ?_)
    exact List.mem_reverse.mp (List.mem_of_find?_eq_some found)
  · exact unknownColumn_spares _ _

theorem Complete.neverLost (complete : b.Complete) : b.NeverLost where
  bind column v := complete.column_bind column fun c known =>
    convert_spares complete.closed v column c.type known
  bindSet column vs := complete.column_bind column fun c known => by
    cases type : c.type <;> try exact mismatch_spares _ _ _
    case set element =>
      rw [type] at known
      exact (convertItems_spares complete.closed vs.toList column element known).bind_pure _
  bindList column vs := complete.column_bind column fun c known => by
    cases type : c.type <;> try exact mismatch_spares _ _ _
    case list element =>
      rw [type] at known
      exact (convertItems_spares complete.closed vs column element known).bind_pure _
  bindMap column es := complete.column_bind column fun c known => by
    cases type : c.type <;> try exact mismatch_spares _ _ _
    case map key value =>
      rw [type] at known
      exact (convertEntries_spares complete.closed _ column key value (fun n h => known n (.inl h))
        fun n h => known n (.inr h)).bind_pure _

end Binder
end WideColumn
