import WideColumn.Proofs.Collection.SortedMap
import WideColumn.Proofs.Plan.Binder

/-!
What a store value must look like to stand in a column of a declared type. Conversion makes nothing
else.
-/
namespace WideColumn

/-- A store value of a declared type: null, or the form of that type with parts that are of the types
declared for them. Sets ascend strictly; a value of a user-defined type has the fields of the
definition in their order. -/
inductive Conforms (keyspace : String) (types : TypeDefs) : Datum → ColumnType → Prop
  | null (type : ColumnType) : Conforms keyspace types .null type
  | boolean (v : Bool) : Conforms keyspace types (.boolean v) .boolean
  | int (v : Int32) : Conforms keyspace types (.int v) .int
  | bigint (v : Int64) : Conforms keyspace types (.bigint v) .bigint
  | counter (v : Int64) : Conforms keyspace types (.bigint v) .counter
  | float (v : Binary32) : Conforms keyspace types (.float v) .float
  | double (v : Binary64) : Conforms keyspace types (.double v) .double
  | text (v : String) : Conforms keyspace types (.text v) .text
  | ascii (v : String) (h : ∀ c ∈ v.toList, c.toNat < 128) : Conforms keyspace types (.text v) .ascii
  | blob (v : Bytes) : Conforms keyspace types (.blob v) .blob
  | timestamp (v : Int64) : Conforms keyspace types (.timestamp v) .timestamp
  | uuid (v : Uuid) : Conforms keyspace types (.uuid v) .uuid
  | timeuuid (v : Uuid) : Conforms keyspace types (.uuid v) .timeuuid
  | list {items : List Datum} {element : ColumnType}
      (h : ∀ d ∈ items, Conforms keyspace types d element) :
      Conforms keyspace types (.list items) (.list element)
  | set {items : List Datum} {element : ColumnType} (ascending : Ascending id items)
      (h : ∀ d ∈ items, Conforms keyspace types d element) :
      Conforms keyspace types (.set items) (.set element)
  | map {entries : List (Datum × Datum)} {key value : ColumnType}
      (hk : ∀ e ∈ entries, Conforms keyspace types e.1 key)
      (hv : ∀ e ∈ entries, Conforms keyspace types e.2 value) :
      Conforms keyspace types (.map entries) (.map key value)
  | udt {name : String} {definition : UserType} {fields : List (String × Datum)}
      (known : types.lookup name = some definition)
      (names : fields.map Prod.fst = definition.fields.map Prod.fst)
      (h : ∀ p ∈ fields.zip definition.fields, Conforms keyspace types p.1.2 p.2.2) :
      Conforms keyspace types (.udt keyspace name fields) (.udt name)

namespace Binder

open Outcome

variable {b : Binder} {d : Datum}

private theorem scalar_conforms {v : Value} {type : ColumnType} (h : scalar? v type = some d) :
    Conforms b.entry.id.keyspace b.types d type := by
  have ascii {s : String} (h : asciiText s = some d) :
      Conforms b.entry.id.keyspace b.types d .ascii := by
    simp only [asciiText, Option.ite_none_right_eq_some, Option.some.injEq] at h
    obtain ⟨hs, rfl⟩ := h
    exact .ascii s (by simpa using hs)
  fun_cases scalar? v type <;> simp only [scalar?, Option.some.injEq, reduceCtorEq] at h
  all_goals first
    | exact ascii h
    | subst h; constructor

private theorem asSet_conforms {items : List Datum} {element : ColumnType}
    (h : ∀ d ∈ items, Conforms b.entry.id.keyspace b.types d element) :
    Conforms b.entry.id.keyspace b.types (asSet items) (.set element) :=
  .set (SortedSet.ofList items).ascending fun d hd => h d (SortedSet.mem_ofList.mp hd)

/-- The fields of a definition are taken in its order. What holds of null and of all that the values given
for fields convert to holds of each of them. -/
theorem takeFields_each {P : Datum → ColumnType → Prop} (null : ∀ type, P .null type) {column : String}
    {given : List (String × (String → ColumnType → Except Error Datum))}
    (hg : ∀ g ∈ given, ∀ path type d, g.2 path type = .ok d → P d type)
    {declared : List (String × ColumnType)} {fields : List (String × Datum)}
    (h : takeFields column given declared = .ok fields) :
    List.Forall₂ (fun f g => f.1 = g.1 ∧ P f.2 g.2) fields declared := by
  induction declared generalizing fields with
  | nil =>
    simp only [takeFields, Except.ok.injEq] at h
    subst h
    exact .nil
  | cons f rest ih =>
    obtain ⟨field, type⟩ := f
    simp only [takeFields] at h
    split at h
    · rename_i g hl
      simp only [bind_eq_ok, pure_eq_ok] at h
      obtain ⟨v, hv, others, ho, rfl⟩ := h
      exact .cons ⟨rfl, hg (field, g) (mem_of_lookup hl) _ _ _ hv⟩ (ih ho)
    · simp only [bind_eq_ok, pure_eq_ok] at h
      obtain ⟨v, hv, others, ho, rfl⟩ := h
      cases hv
      exact .cons ⟨rfl, null type⟩ (ih ho)

private theorem takeFields_conforms {column : String}
    {given : List (String × (String → ColumnType → Except Error Datum))}
    (hg : ∀ g ∈ given, ∀ path type d, g.2 path type = .ok d →
      Conforms b.entry.id.keyspace b.types d type)
    {declared : List (String × ColumnType)} {fields : List (String × Datum)}
    (h : takeFields column given declared = .ok fields) :
    fields.map Prod.fst = declared.map Prod.fst ∧
      ∀ p ∈ fields.zip declared, Conforms b.entry.id.keyspace b.types p.1.2 p.2.2 := by
  have each := takeFields_each (P := Conforms b.entry.id.keyspace b.types) .null hg h
  refine ⟨map_eq_of_forall₂ (each.flip.imp fun _ _ same => same.1), fun p hp => ?_⟩
  exact ((List.forall₂_iff_zip.mp each).2 hp).2

mutual
/-- What conversion makes of a value is of the type it was converted for. -/
theorem convert_conforms : (v : Value) → {column : String} → {type : ColumnType} → {d : Datum} →
    b.convert v column type = .ok d → Conforms b.entry.id.keyspace b.types d type
  | .null, _, type, _, h => by
    cases h
    exact .null type
  | .list items, _, type, _, h => by
    cases type <;> simp only [convert, reduceCtorEq] at h
    case list element =>
      split at h
      · cases h
        exact .null _
      · simp only [bind_eq_ok, pure_eq_ok] at h
        obtain ⟨ds, hs, rfl⟩ := h
        exact .list (convertItems_conform items hs)
    case set element =>
      split at h
      · cases h
        exact .null _
      · simp only [bind_eq_ok, pure_eq_ok] at h
        obtain ⟨ds, hs, rfl⟩ := h
        exact asSet_conforms (convertItems_conform items hs)
  | .set items, _, type, _, h => by
    cases type <;> simp only [convert, reduceCtorEq] at h
    case list element =>
      split at h
      · cases h
        exact .null _
      · cases h
    case set element =>
      split at h
      · cases h
        exact .null _
      · simp only [bind_eq_ok, pure_eq_ok] at h
        obtain ⟨ds, hs, rfl⟩ := h
        exact asSet_conforms (convertItems_conform items hs)
  | .map entries, _, type, _, h => by
    cases type <;> simp only [convert, reduceCtorEq] at h
    case map key value =>
      split at h
      · cases h
        exact .null _
      · simp only [bind_eq_ok, pure_eq_ok] at h
        obtain ⟨ds, hs, rfl⟩ := h
        obtain ⟨hk, hv⟩ := convertEntries_conform entries hs
        exact .map hk hv
  | .fields entries, _, type, _, h => by
    cases type <;> simp only [convert, reduceCtorEq] at h
    case udt name =>
      split at h
      · cases h
      · rename_i definition known
        split at h
        · cases h
        · simp only [bind_eq_ok, pure_eq_ok] at h
          obtain ⟨fields, hf, rfl⟩ := h
          obtain ⟨hn, hc⟩ := takeFields_conforms (converters_conform entries) hf
          exact .udt known hn hc
  | .boolean v, column, type, _, h
  | .int v, column, type, _, h
  | .bigint v, column, type, _, h
  | .float v, column, type, _, h
  | .double v, column, type, _, h
  | .text v, column, type, _, h
  | .enum v, column, type, _, h
  | .bytes v, column, type, _, h
  | .timestamp v, column, type, _, h
  | .uuid v, column, type, _, h => by
    simp only [convert] at h
    split at h
    · rename_i hs
      cases h
      exact scalar_conforms hs
    · cases h

theorem convertItems_conform : (vs : List Value) → {column : String} → {type : ColumnType} →
    {ds : List Datum} → b.convertItems vs column type = .ok ds →
    ∀ d ∈ ds, Conforms b.entry.id.keyspace b.types d type
  | [], _, _, _, h => by
    cases h
    simp
  | v :: vs, _, _, _, h => by
    simp only [convertItems, bind_eq_ok, pure_eq_ok] at h
    obtain ⟨item, hi, items, hs, rfl⟩ := h
    exact List.forall_mem_cons.mpr ⟨convert_conforms v hi, convertItems_conform vs hs⟩

theorem convertEntries_conform : (es : List (Value × Value)) → {column : String} →
    {key value : ColumnType} → {ds : List (Datum × Datum)} →
    b.convertEntries es column key value = .ok ds →
    (∀ e ∈ ds, Conforms b.entry.id.keyspace b.types e.1 key) ∧
      ∀ e ∈ ds, Conforms b.entry.id.keyspace b.types e.2 value
  | [], _, _, _, _, h => by
    cases h
    simp
  | (k, v) :: es, _, _, _, _, h => by
    simp only [convertEntries, bind_eq_ok, pure_eq_ok] at h
    obtain ⟨dk, hk, dv, hv, ds, hs, rfl⟩ := h
    obtain ⟨hks, hvs⟩ := convertEntries_conform es hs
    exact ⟨List.forall_mem_cons.mpr ⟨convert_conforms k hk, hks⟩,
      List.forall_mem_cons.mpr ⟨convert_conforms v hv, hvs⟩⟩

theorem converters_conform : (es : List (String × Value)) → ∀ g ∈ b.converters es,
    ∀ path type d, g.2 path type = .ok d → Conforms b.entry.id.keyspace b.types d type
  | [] => by simp [converters]
  | (name, v) :: es => by
    rw [converters]
    exact List.forall_mem_cons.mpr
      ⟨fun _ _ _ h => convert_conforms v h, converters_conform es⟩
end

/-- The column is given the store's form of a value, or of elements or entries that it is changed by. -/
inductive Gives (b : Binder) (name : String) (d : Datum) : Prop
  | value {v : Value} (h : b.bind name v = .ok d)
  | set {vs : SortedSet Value} (h : b.bindSet name vs = .ok d)
  | list {vs : List Value} (h : b.bindList name vs = .ok d)
  | map {es : SortedMap Value Value} (h : b.bindMap name es = .ok d)

/-- What a column is given conforms to its declared type. -/
theorem given_conforms {name : String} (h : b.Gives name d) :
    ∃ c, b.column name = .ok c ∧ Conforms b.entry.id.keyspace b.types d c.type := by
  cases h with
  | value h =>
    obtain ⟨c, hc, h⟩ := bind_eq_ok.mp h
    exact ⟨c, hc, convert_conforms _ h⟩
  | set h =>
    obtain ⟨c, element, ds, hc, type, items, rfl⟩ := bindSet_eq_ok.mp h
    refine ⟨c, hc, ?_⟩
    rw [type]
    exact asSet_conforms (convertItems_conform _ items)
  | list h =>
    obtain ⟨c, element, ds, hc, type, items, rfl⟩ := bindList_eq_ok.mp h
    refine ⟨c, hc, ?_⟩
    rw [type]
    exact .list (convertItems_conform _ items)
  | map h =>
    obtain ⟨c, key, value, ds, hc, type, entries, rfl⟩ := bindMap_eq_ok.mp h
    obtain ⟨keys, values⟩ := convertEntries_conform _ entries
    refine ⟨c, hc, ?_⟩
    rw [type]
    exact .map keys values

/-- Two objects without one of their fields that come out the same, as do the sets in them. -/
theorem given_objects_conform :
    let addr : UserType := ⟨⟨"k", "addr"⟩, [("zip", .int), ("street", .ascii), ("tags", .set .text)]⟩
    let b : Binder := ⟨⟨⟨⟨"k", "a"⟩, [⟨"id", .int, .partitionKey⟩,
      ⟨"homes", .set (.udt "addr"), .regular⟩]⟩, 0⟩, [("addr", addr)]⟩
    let v : Value := .list [
      .fields [("tags", .list [.text "old", .enum "new", .text "old"]), ("zip", .int 7)],
      .fields [("tags", .set [.text "new", .text "old"]), ("zip", .int 7)]]
    let d : Datum := .set [.udt "k" "addr" [("zip", .int 7), ("street", .null),
      ("tags", .set [.text "new", .text "old"])]]
    b.bind "homes" v = .ok d ∧
      ∃ c, b.column "homes" = .ok c ∧ Conforms b.entry.id.keyspace b.types d c.type := by
  intro addr b v d
  have bound : b.bind "homes" v = .ok d := by decide +kernel
  exact ⟨bound, given_conforms (.value bound)⟩

end Binder
end WideColumn
