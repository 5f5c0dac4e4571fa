import WideColumn.Proofs.Engine.Current
import WideColumn.Proofs.Engine.Resolves
import WideColumn.Proofs.Engine.Tidy
import WideColumn.Proofs.Plan.Defined

/-!
The resolution of user-defined types. It ends, however the definitions depend on each other, with
exactly the types that can be reached, or with one of them that has no definition.
-/
namespace WideColumn

variable {σ : Type}

/-- What a resolution comes to where types are defined like this. It succeeds if all types that can be
reached are defined, with just these; else it fails for one that is not. -/
structure Resolution (definition : String → Option UserType) (types : List ColumnType) (keyspace : String)
    (outcome : Except Error TypeDefs) : Prop where
  succeeds : (∃ found, outcome = .ok found) ↔
    ∀ name, Reaches definition types name → (definition name).isSome
  names : ∀ found, outcome = .ok found → (found.map Prod.fst).Nodup ∧
    ∀ name, name ∈ found.map Prod.fst ↔ Reaches definition types name
  definitions : ∀ found, outcome = .ok found →
    ∀ name, Reaches definition types name → found.lookup name = definition name
  fails : ∀ e, outcome = .error e → ∃ name, e = .typeNotFound keyspace name ∧
    Reaches definition types name ∧ definition name = none

namespace Op

variable [Store σ] {keyspace : String} {types : List ColumnType} {found : TypeDefs} {w : World σ}
  {r : Except Error TypeDefs × World σ} {schema : Schema} {states : σ → Prop} {config : Config}

/-- The user-defined types that the types mention. -/
def namesOf (types : List ColumnType) : List String :=
  types.foldl (fun names t => t.addNames names) []

theorem mem_namesOf {name : String} : name ∈ namesOf types ↔ ∃ t ∈ types, t.Mentions name := by
  rw [namesOf, ColumnType.mem_foldl_addNames]
  simp

/-- Types are as the store has them, or as they are cached. -/
def typeOutlook (schema : Schema) (states : σ → Prop) (w : World σ) : Outlook σ where
  store := states
  entry _ _ _ := True
  type name type := schema.type name = some type ∨ (w.catalog.types.get name).1 = some type

theorem typeOutlook_holds (told : schema.Told states) (w : World σ) :
    (typeOutlook schema states w).Holds where
  prepare text := told.prepare text
  describeTable := told.describeTable
  describeType := told.describeType
  entries _ _ _ _ := trivial
  types hs answer := .inl (told.types hs answer).symm

omit [Store σ] in
theorem fits_typeOutlook (schema : Schema) (state : states w.store) (tidy : w.Tidy config) :
    w.Fits (typeOutlook schema states w) where
  store := state
  sound := ⟨tidy.tables.sound, tidy.types.sound⟩
  types p hp _ value := .inr (tidy.types.get_eq_some.mpr ⟨p, hp, rfl, value⟩)

/-- A resolution that succeeds leaves no type without a definition. -/
theorem Resolves.complete {entry : TableEntry}
    (h : Resolves keyspace (namesOf (entry.table.columns.map Column.type)) [] w found r)
    (ok : r.1 = .ok found) : (Binder.mk entry found).Complete := by
  obtain ⟨-, names, closed⟩ := h.closes ok
  refine ⟨fun c hc name mentioned => ?_, fun d hd f hf name mentioned => ?_⟩
  · exact names name (mem_namesOf.mpr ⟨c.type, List.mem_map_of_mem hc, mentioned⟩)
  · obtain none | closed := closed d hd
    · cases none
    · exact closed name ⟨f, hf, mentioned⟩

/-- Only what is reached is found. -/
theorem Resolves.reached
    (h : Resolves keyspace (namesOf types) [] w found r) (sound : w.Sound) :
    (found.map Prod.fst).Nodup ∧ ∀ d ∈ found, Reaches (found.lookup ·) types d.1 := by
  have start (R : String → Prop) (hR : ∀ name ∈ namesOf types, R name) :
      Goes Outlook.any keyspace R (namesOf types) [] w :=
    ⟨⟨trivial, sound, fun _ _ _ _ => trivial⟩, List.nodup_nil, List.forall_mem_nil _,
      List.forall_mem_nil _, hR⟩
  have apart := (h.ends (R := fun _ => True) Outlook.any_holds (fun _ _ _ _ _ => trivial)
    (start _ fun _ _ => trivial)).apart
  have ends := h.ends (R := Reaches (found.lookup ·) types) Outlook.any_holds
    (fun d hd reached name mentioned => .field reached (lookup_of_mem apart hd) mentioned)
    (start _ fun name hn => by
      obtain ⟨t, ht, mentioned⟩ := mem_namesOf.mp hn
      exact .column ht mentioned)
  exact ⟨apart, ends.reached⟩

/-- What is found is taken as it has been found, and the rest as the store has it. -/
theorem Resolves.resolution {definition : String → Option UserType}
    (h : Resolves keyspace (namesOf types) [] w found r)
    (defined : ∀ name, definition name = (found.lookup name).or (schema.type ⟨keyspace, name⟩))
    (ends : Ends (typeOutlook schema states w) keyspace (Reaches definition types) w found r)
    (fails : ∀ e, r.1 = .error e → ∃ name, e = .typeNotFound keyspace name ∧
      Reaches definition types name ∧ definition name = none) :
    Resolution definition types keyspace r.1 := by
  -- all that can be reached has been found, if the loop has succeeded
  have all (types' : TypeDefs) (ok : r.1 = .ok types') : types' = found ∧
      ∀ name, Reaches definition types name → (found.lookup name).isSome := by
    obtain ⟨same, names, closed⟩ := h.closes ok
    refine ⟨same, fun name reached => ?_⟩
    induction reached with
    | column ht mentioned => exact names _ (mem_namesOf.mpr ⟨_, ht, mentioned⟩)
    | @field outer name d _ hd mentioned there =>
      obtain ⟨d', hd'⟩ := Option.isSome_iff_exists.mp there
      rw [defined, hd', Option.some_or] at hd
      obtain rfl := Option.some.inj hd
      obtain none | closed := closed _ (mem_of_lookup hd')
      · cases none
      · exact closed name mentioned
  refine ⟨⟨?_, fun known => ?_⟩, fun types' ok => ?_, fun types' ok name reached => ?_, fails⟩
  · rintro ⟨types', ok⟩ name reached
    rw [defined, Option.isSome_or, (all types' ok).2 name reached, Bool.true_or]
  · cases outcome : r.1 with
    | ok types' => exact ⟨types', rfl⟩
    | error e =>
      obtain ⟨name, -, reached, undefined⟩ := fails e outcome
      have there := known name reached
      rw [undefined] at there
      cases there
  · obtain ⟨rfl, found⟩ := all types' ok
    refine ⟨ends.apart, fun name => ⟨fun hn => ?_, fun reached => ?_⟩⟩
    · obtain ⟨d, hd, rfl⟩ := List.mem_map.mp hn
      exact ends.reached d hd
    · obtain ⟨d, hd⟩ := Option.isSome_iff_exists.mp (found name reached)
      exact List.mem_map_of_mem (mem_of_lookup hd)
  · obtain ⟨rfl, found⟩ := all types' ok
    obtain ⟨d, hd⟩ := Option.isSome_iff_exists.mp (found name reached)
    rw [defined, hd, Option.some_or]

/-- A store knows no more types than it counts, and so the loop is never cut short. -/
theorem resolveTypes_resolves {known : List TypeName} (told : schema.Told states)
    (state : states w.store) (tidy : w.Tidy config)
    (listed : ∀ name, (schema.type name).isSome → name ∈ known)
    (counted : known.length ≤ Store.typeCount w.store) (keyspace : String) (types : List ColumnType) :
    ∃ found, Resolves keyspace (namesOf types) [] w found ((resolveTypes keyspace types).run w) := by
  refine resolveFrom_resolves (typeOutlook_holds told w) (w.catalog.types.places.map Place.key ++ known)
    (fun name type may => ?_) (fits_typeOutlook schema state tidy) List.nodup_nil (List.forall_mem_nil _) ?_
  · obtain hs | hc := may
    · exact List.mem_append_right _ (listed name (hs ▸ rfl))
    · obtain ⟨p, hp, rfl, -⟩ := tidy.types.get_eq_some.mp hc
      exact List.mem_append_left _ (List.mem_map_of_mem hp)
  · rw [List.length_append, List.length_map]
    exact Nat.lt_succ_of_le (Nat.add_le_add_left counted _)

/-- The metadata of a table comes with all definitions that it depends on. -/
theorem binder_complete {known : List TypeName} (told : schema.Told states) (state : states w.store)
    (tidy : w.Tidy config) (listed : ∀ name, (schema.type name).isSome → name ∈ known)
    (counted : ∀ s, states s → known.length ≤ Store.typeCount s) {id : TableId} {b : Binder}
    {u : World σ} (bound : (binder id).run w = (.ok b, u)) : b.Complete := by
  obtain ⟨entry, v, described, bound⟩ := run_bind_eq_ok.mp bound
  obtain ⟨types, u', resolved, bound⟩ := run_bind_eq_ok.mp bound
  cases bound
  have developed := develops_getColumns (typeOutlook_holds told w) id w state
    ⟨tidy.tables.sound, tidy.types.sound⟩
  have tidyAfter := (KeepsTidy.getColumns id).ran tidy described
  rw [described] at developed
  obtain ⟨found, loop⟩ := resolveTypes_resolves told developed.store tidyAfter listed
    (counted _ developed.store) id.keyspace (entry.table.columns.map Column.type)
  rw [resolved] at loop
  obtain ⟨rfl, -⟩ := loop.closes rfl
  exact loop.complete rfl

/-- The types of columns are resolved in a loop that ends, whatever the store knows and however its types
depend on each other. If the store does not fail, the outcome is decided by what can be reached, where a
type is taken as it was cached or as the store has it. With what has been found no value that is bound to
a column meets a type without a definition. -/
theorem resolveTypes_reaches {known : List TypeName} (told : schema.Told states) (state : states w.store)
    (tidy : w.Tidy config) (listed : ∀ name, (schema.type name).isSome → name ∈ known)
    (counted : known.length ≤ Store.typeCount w.store) (keyspace : String) (types : List ColumnType) :
    let r := (resolveTypes keyspace types).run w
    (∃ found, Resolves keyspace (namesOf types) [] w found r) ∧
      (∃ definition : String → Option UserType,
        (∀ name, definition name = schema.type ⟨keyspace, name⟩ ∨
          ∃ type, (w.catalog.types.get ⟨keyspace, name⟩).1 = some type ∧ definition name = some type) ∧
        (Resolution definition types keyspace r.1 ∨
          ∃ name fault es, r.1 = .error (.transport fault) ∧
            r.2.events = w.events ++ es ++ [.describeType ⟨keyspace, name⟩ (.error fault)])) ∧
      ∀ (entry : TableEntry) found, entry.table.columns.map Column.type = types → r.1 = .ok found →
        (Binder.mk entry found).NeverLost := by
  intro r
  have ho := typeOutlook_holds told w
  have fits := fits_typeOutlook schema state tidy
  obtain ⟨found, loop⟩ := resolveTypes_resolves told state tidy listed counted keyspace types
  set definition := fun name => (found.lookup name).or (schema.type ⟨keyspace, name⟩) with defined
  have start (R : String → Prop) (hR : ∀ name ∈ namesOf types, R name) :
      Goes (typeOutlook schema states w) keyspace R (namesOf types) [] w :=
    ⟨fits, List.nodup_nil, List.forall_mem_nil _, List.forall_mem_nil _, hR⟩
  -- no name is found twice, so `definition` is what has been found
  have apart : (found.map Prod.fst).Nodup :=
    (loop.ends (R := fun _ => True) ho (fun _ _ _ _ _ => trivial) (start _ fun _ _ => trivial)).apart
  have taken (d) (hd : d ∈ found) : definition d.1 = some d.2 := by
    simp only [defined, lookup_of_mem apart hd, Option.some_or]
  have ends := loop.ends (R := Reaches definition types) ho
    (fun d hd reached name mentioned => .field reached (taken d hd) mentioned)
    (start _ fun name hn => by
      obtain ⟨t, ht, mentioned⟩ := mem_namesOf.mp hn
      exact .column ht mentioned)
  refine ⟨⟨found, loop⟩, ⟨definition, fun name => ?_, ?_⟩, ?_⟩
  · cases there : found.lookup name with
    | none => exact .inl (by simp only [defined, there, Option.none_or])
    | some type =>
      have same := taken _ (mem_of_lookup there)
      obtain hs | hc := ends.told _ (mem_of_lookup there)
      · exact .inl (same.trans hs.symm)
      · exact .inr ⟨type, hc, same⟩
  · by_cases fault : ∃ name fault es, r.1 = .error (.transport fault) ∧
        r.2.events = w.events ++ es ++ [.describeType ⟨keyspace, name⟩ (.error fault)]
    · exact .inr fault
    · refine .inl (loop.resolution (fun _ => rfl) ends fun e failed => ?_)
      obtain ⟨name, u, es, reached, absent, missing, fits, events⟩ := ends.missing e failed
      cases missing with
      | unknown answer =>
        have undefined := told.types fits.store answer
        exact ⟨name, rfl, reached, by simp only [defined, absent, Option.none_or, ← undefined]⟩
      | fault answered => exact absurd ⟨name, _, es, failed, events ▸ answered⟩ fault
  · rintro entry types' rfl ok
    obtain ⟨rfl, -⟩ := loop.closes ok
    exact (loop.complete ok).neverLost

/-- Two types that need each other and share a third are found though only one fits into the cache. A
type whose field has none is not. -/
theorem mutual_types_resolved :
    let store : Script := { types := [
      ⟨⟨"shop", "address"⟩, [("city", .udt "city"), ("owner", .udt "person")]⟩,
      ⟨⟨"shop", "city"⟩, [("name", .text)]⟩,
      ⟨⟨"shop", "person"⟩, [("homes", .list (.udt "address")), ("born", .udt "city")]⟩,
      ⟨⟨"shop", "parcel"⟩, [("to", .udt "address"), ("state", .set (.udt "state"))]⟩] }
    let w : World Script := .new { typeCapacity := 1 } store
    let known := store.types.map UserType.name
    let definition (name : String) := store.schema.type ⟨"shop", name⟩
    let entry : TableEntry := ⟨⟨⟨"shop", "orders"⟩, [⟨"id", .int, .partitionKey⟩,
      ⟨"sent", .map .text (.set (.udt "address")), .regular⟩]⟩, 0⟩
    let types := entry.table.columns.map Column.type
    store.schema.Told store.SameSchema ∧ store.SameSchema w.store ∧ w.Tidy { typeCapacity := 1 } ∧
      (∀ name, (store.schema.type name).isSome → name ∈ known) ∧
      known.length ≤ Store.typeCount w.store ∧
      (∃ found, ((resolveTypes "shop" types).run w).1 = .ok found ∧
        (∀ name, name ∈ ["city", "person", "address"] ↔ Reaches definition types name) ∧
        (Binder.mk entry found).NeverLost) ∧
      ((resolveTypes "shop" [.udt "parcel"]).run w).1 = .error (.typeNotFound "shop" "state") ∧
      Reaches definition [.udt "parcel"] "state" ∧ definition "state" = none := by
  intro store w known definition entry types
  have tidy : w.Tidy { typeCapacity := 1 } := .new _ _
  have listed := store.schema_types_listed
  have counted : known.length ≤ Store.typeCount w.store := by decide
  have resolved := resolveTypes_reaches store.schema_told ⟨rfl, rfl⟩ tidy listed counted "shop"
  -- nothing is cached, so all is as the store has it
  have as_stored {view : String → Option UserType}
      (h : ∀ name, view name = store.schema.type ⟨"shop", name⟩ ∨
        ∃ type, (w.catalog.types.get ⟨"shop", name⟩).1 = some type ∧ view name = some type) :
      view = definition := by
    funext name
    obtain stored | ⟨type, cached, -⟩ := h name
    · exact stored
    · cases cached
  have names : (((resolveTypes "shop" types).run w).1.toOption.map (List.map Prod.fst)) =
      some ["city", "person", "address"] := by decide +kernel
  have missing : ((resolveTypes "shop" [.udt "parcel"]).run w).1 =
      .error (.typeNotFound "shop" "state") := by decide +kernel
  refine ⟨store.schema_told, ⟨rfl, rfl⟩, tidy, listed, counted, ?_, missing, ?_⟩
  · obtain ⟨-, ⟨view, viewed, closed⟩, bound⟩ := resolved types
    obtain rfl := as_stored viewed
    generalize ((resolveTypes "shop" types).run w) = r at names closed bound
    obtain ⟨e | found, v⟩ := r
    · cases names
    · obtain closed | ⟨_, _, _, failed, _⟩ := closed
      · obtain ⟨-, reached⟩ := closed.names found rfl
        rw [Option.some.inj names] at reached
        exact ⟨found, rfl, reached, bound entry found rfl rfl⟩
      · cases failed
  · obtain ⟨-, ⟨view, viewed, closed⟩, -⟩ := resolved [.udt "parcel"]
    obtain rfl := as_stored viewed
    rw [missing] at closed
    obtain closed | ⟨_, _, _, failed, _⟩ := closed
    · obtain ⟨name, same, reached, undefined⟩ := closed.fails _ rfl
      cases same
      exact ⟨reached, undefined⟩
    · cases failed

end Op
end WideColumn
