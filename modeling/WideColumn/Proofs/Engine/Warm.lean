import WideColumn.Proofs.Engine.Rereads

/-!
What a compilation leaves cached: the metadata it has been planned with and the statement it has been
prepared as, if the types of the table all have room. Compiled again, it finds these.
-/
namespace WideColumn

variable {σ κ ν : Type} {config : Config}

/-- What is given is there afterwards. -/
theorem Cache.Gives.served [DecidableEq κ] [Hashed κ] {ε : Type} {c : Cache κ ν} {k : κ} {v : ν}
    {u : Use ε κ ν} (gives : c.Gives k v u) : ((c.use u).get k).1 = some v :=
  (Retains.of_gives gives : Retains _ ∅ k v).get (Finset.notMem_empty k)

namespace Op

/-- A value that is got has been used, and with it the cache. -/
theorem getOrLoad_gives [DecidableEq κ] [Hashed κ] (shelf : Shelf σ κ ν) {k : κ} {load : Op σ ν}
    {w u : World σ} {v : ν} (lawful : ∀ c w, shelf.get (shelf.set c w) = c)
    (alone : ∀ w, shelf.get (load.run w).2 = shelf.get w)
    (ran : (getOrLoad shelf k load).run w = (.ok v, u)) : ∃ outcome : Except Error ν,
      (shelf.get w).Gives k v (.load k outcome) ∧ shelf.get u = (shelf.get w).use (.load k outcome) := by
  rcases loaded : load.run (shelf.set ((shelf.get w).acquire k).2 w) with ⟨outcome, x⟩
  have kept := alone (shelf.set ((shelf.get w).acquire k).2 w)
  rw [loaded, lawful] at kept
  obtain ⟨value, cache⟩ := Cache.run_getOrLoad lawful loaded kept
  rw [ran] at value cache
  exact ⟨outcome, .load value.symm, cache⟩

section Loads

variable [Store σ] {w v : World σ}

/-- An operation that touches none of the caches. -/
def Uncached {α : Type} (x : Op σ α) : Prop := ∀ w : World σ, w.CachesKept (x.run w).2

theorem uncached_tableLoad (id : TableId) :
    Uncached (do tableEntry id (← ask (Store.describeTable id) (.describeTable id)) : Op σ TableEntry) := by
  intro w
  rw [tableLoad_run]
  obtain ⟨outcome, ran, -⟩ := tableEntry_run id (Store.describeTable id w.store).1 _
  rw [ran]
  exact ⟨rfl, rfl, rfl⟩

theorem uncached_typeLoad (name : TypeName) :
    Uncached (do knownType name (← ask (Store.describeType name) (.describeType name)) : Op σ UserType) := by
  intro w
  rw [typeLoad_run]
  obtain ⟨outcome, ran, -⟩ := knownType_run name (Store.describeType name w.store).1 _
  rw [ran]
  exact ⟨rfl, rfl, rfl⟩

theorem uncached_statementLoad (text : String) :
    Uncached (do orFault (← ask (Store.prepare text) (.prepare text)) : Op σ Prepared) := by
  intro w
  rw [run_bind_ok (run_ask _ _ _)]
  cases (Store.prepare text w.store).1 <;> exact ⟨rfl, rfl, rfl⟩

theorem getType_gives {name : TypeName} {type : UserType} (ran : (getType name).run w = (.ok type, v)) :
    (∃ outcome : Except Error UserType, w.catalog.types.Gives name type (.load name outcome) ∧
      v.catalog.types = w.catalog.types.use (.load name outcome)) ∧
    v.catalog.tables = w.catalog.tables := by
  have uncached := uncached_typeLoad (σ := σ) name
  refine ⟨getOrLoad_gives .types (fun _ _ => rfl) (fun w => (uncached w).types) ran, ?_⟩
  have kept := Maintains.getOrLoad .types name
    (I := fun u => u.catalog.tables = w.catalog.tables) (fun _ _ hw => hw)
    (fun u hu => (uncached u).tables.trans hu)
  exact kept.ran rfl ran

theorem prepare_gives {text : String} {p : Prepared}
    (ran : (prepare text).run w = (.ok p, v)) : v.cached (.prepare text) = some (.prepared p) ∧
      v.catalog.tables = w.catalog.tables ∧ v.catalog.types = w.catalog.types := by
  have uncached := uncached_statementLoad (σ := σ) text
  obtain ⟨outcome, gives, used⟩ :=
    getOrLoad_gives .statements (fun _ _ => rfl) (fun w => (uncached w).statements) ran
  have kept := Maintains.getOrLoad .statements text
    (I := fun u => u.catalog.tables = w.catalog.tables ∧ u.catalog.types = w.catalog.types)
    (fun _ _ hw => hw)
    (fun u hu => ⟨(uncached u).tables.trans hu.1, (uncached u).types.trans hu.2⟩)
  refine ⟨World.cached_prepare.mpr ?_, kept.ran ⟨rfl, rfl⟩ ran⟩
  have there := gives.served
  rwa [← used] at there

theorem getColumns_gives {id : TableId} {entry : TableEntry}
    (ran : (getColumns id).run w = (.ok entry, v)) :
    v.cached (.getColumns id) = some (.columns entry) := by
  rw [getColumns] at ran
  obtain ⟨entry', u, got, served⟩ := run_bind_eq_ok.mp ran
  obtain ⟨v', same, kept, -⟩ := serve_run entry' u
  cases same.symm.trans served
  rw [kept.cached, World.cached_getColumns]
  obtain ⟨outcome, gives, used⟩ := getOrLoad_gives .tables (fun _ _ => rfl)
    (fun w => (uncached_tableLoad id w).tables) got
  have there := gives.served
  rwa [← used] at there

variable {keyspace : String} {pending : List String} {resolved found : TypeDefs}
  {r : Except Error TypeDefs × World σ}

/-- With room for all types that it finds, the loop keeps each that it has found: since then it has used
no other than those. The tables stay as they are. -/
theorem Resolves.retains (h : Resolves keyspace pending resolved w found r) {types : TypeDefs}
    (ok : r.1 = .ok types) {n : Nat} {names : Finset TypeName} (few : names.card ≤ Cache.shardCapacity n)
    (among : ∀ d ∈ found, ⟨keyspace, d.1⟩ ∈ names) (tidy : w.catalog.types.Tidy n)
    (kept : ∀ d ∈ resolved, w.catalog.types.Retains (names.erase ⟨keyspace, d.1⟩) ⟨keyspace, d.1⟩ d.2) :
    (∀ d ∈ found, r.2.catalog.types.Retains (names.erase ⟨keyspace, d.1⟩) ⟨keyspace, d.1⟩ d.2) ∧
      r.2.catalog.tables = w.catalog.tables := by
  induction h with
  | done => exact ⟨kept, rfl⟩
  | skip _ _ ih => exact ih ok among tidy kept
  | fail => cases ok
  | @add pending name type resolved found w v r new ran rest ih =>
    obtain ⟨⟨outcome, gives, used⟩, tables⟩ := getType_gives ran
    have taken := among (name, type) (rest.suffix.mem List.mem_cons_self)
    have spare (d : TypeName) (hd : d ∈ names) : (names.erase d).card < Cache.shardCapacity n :=
      (Finset.card_erase_lt_of_mem hd).trans_le few
    -- this type has been used last, and to each of the others it is one of the few used since
    have kept' : ∀ d ∈ (name, type) :: resolved,
        v.catalog.types.Retains (names.erase ⟨keyspace, d.1⟩) ⟨keyspace, d.1⟩ d.2 := by
      rw [used, List.forall_mem_cons]
      constructor
      · exact .of_gives gives
      · intro d hd
        have mem := among d (rest.suffix.mem (List.mem_cons_of_mem _ hd))
        refine (kept d hd).use tidy (spare _ mem) (Finset.notMem_erase _ _) id fun j hj ne _ => ?_
        obtain rfl : ⟨keyspace, name⟩ = j := Option.some.inj hj
        exact Finset.mem_erase.mpr ⟨ne, taken⟩
    obtain ⟨retained, tables'⟩ := ih ok among (used ▸ tidy.use _) kept'
    exact ⟨retained, tables'.trans tables⟩

end Loads

end Op

/-- The metadata of the table is cached, and all definitions that come with it. -/
structure World.Warm (w : World σ) (id : TableId) (b : Binder) : Prop where
  table : w.cached (.getColumns id) = some (.columns b.entry)
  types : ∀ d ∈ b.types, w.cached (.getType ⟨id.keyspace, d.1⟩) = some (.type d.2)

/-- It still is where the same tables and types are cached. -/
theorem World.Warm.of_same {w u : World σ} {id : TableId} {b : Binder} (warm : w.Warm id b)
    (tables : u.catalog.tables = w.catalog.tables) (types : u.catalog.types = w.catalog.types) :
    u.Warm id b where
  table := by rw [← warm.table]; simp only [World.cached, tables]
  types d hd := by rw [← warm.types d hd]; simp only [World.cached, types]

/-- The table reaches at most this many user-defined types, by the definitions that come with it. -/
def Binder.ReachesAtMost (b : Binder) (n : Nat) : Prop :=
  ∃ names : Finset String, names.card ≤ n ∧
    ∀ name, Reaches (b.types.lookup ·) (b.entry.table.columns.map Column.type) name → name ∈ names

/-- Metadata that is complete has a definition for each. -/
theorem Binder.Complete.reachesAtMost {b : Binder} (complete : b.Complete) :
    b.ReachesAtMost b.types.length := by
  refine ⟨(b.types.map Prod.fst).toFinset, (List.toFinset_card_le _).trans_eq (List.length_map _),
    fun name reached => ?_⟩
  have there : (b.types.lookup name).isSome := by
    induction reached with
    | column ht mentioned =>
      obtain ⟨c, hc, rfl⟩ := List.mem_map.mp ht
      exact complete.columns c hc _ mentioned
    | field _ defined mentioned =>
      obtain ⟨f, hf, mentioned⟩ := mentioned
      exact complete.closed _ (mem_of_lookup defined) f hf _ mentioned
  obtain ⟨d, hd⟩ := Option.isSome_iff_exists.mp there
  exact List.mem_toFinset.mpr (List.mem_map_of_mem (mem_of_lookup hd))

namespace Op

variable [Store σ] {w u v x : World σ} {id : TableId} {b : Binder}

theorem binder_steps (bound : (binder id).run w = (.ok b, u)) (complete : b.Complete) :
    ∃ v, (getColumns id).run w = (.ok b.entry, v) ∧
      Resolves id.keyspace (namesOf (b.entry.table.columns.map Column.type)) [] v b.types
        (.ok b.types, u) := by
  obtain ⟨entry, v, described, bound⟩ := run_bind_eq_ok.mp bound
  obtain ⟨types, u', resolved, bound⟩ := run_bind_eq_ok.mp bound
  cases bound
  refine ⟨v, described, resolveFrom_complete resolved (fun name hn => ?_) fun d hd name hn => ?_⟩
  · obtain ⟨t, ht, mentioned⟩ := mem_namesOf.mp hn
    obtain ⟨c, hc, rfl⟩ := List.mem_map.mp ht
    exact complete.columns c hc name mentioned
  · obtain ⟨f, hf, mentioned⟩ := hn
    exact complete.closed d hd f hf name mentioned

/-- All that has been loaded for a table is cached at the end, if its types have room in one shard. -/
theorem binder_warm (tidy : w.Tidy config) (bound : (binder id).run w = (.ok b, u))
    (complete : b.Complete) (few : b.ReachesAtMost (Cache.shardCapacity config.typeCapacity)) : u.Warm id b := by
  obtain ⟨v, described, loop⟩ := binder_steps bound complete
  have tidy' := (KeepsTidy.getColumns id).ran tidy described
  obtain ⟨names, few, reached⟩ := few
  obtain ⟨-, found⟩ := loop.reached ⟨tidy'.tables.sound, tidy'.types.sound⟩
  have among : ∀ d ∈ b.types, ⟨id.keyspace, d.1⟩ ∈ names.image (TypeName.mk id.keyspace) :=
    fun d hd => Finset.mem_image_of_mem _ (reached _ (found d hd))
  obtain ⟨retained, tables⟩ := loop.retains rfl
    (Finset.card_image_le.trans few) among tidy'.types (List.forall_mem_nil _)
  refine ⟨?_, fun d hd => ?_⟩
  · rw [World.cached_getColumns, tables, ← World.cached_getColumns]
    exact getColumns_gives described
  · exact World.cached_getType.mpr ((retained d hd).get (Finset.notMem_erase _ _))

omit [Store σ] in
/-- What is cached under different names takes as many places. -/
theorem length_le_places (tidy : x.Tidy config) {keyspace : String} {types : TypeDefs}
    (apart : (types.map Prod.fst).Nodup)
    (cached : ∀ d ∈ types, x.cached (.getType ⟨keyspace, d.1⟩) = some (.type d.2)) :
    types.length ≤ x.catalog.types.places.length := by
  have placed : ∀ d ∈ types, ⟨keyspace, d.1⟩ ∈ x.catalog.types.places.map Place.key := by
    intro d hd
    obtain ⟨p, hp, key, -⟩ := tidy.types.get_eq_some.mp (World.cached_getType.mp (cached d hd))
    exact key ▸ List.mem_map_of_mem hp
  exact (length_le_known apart placed).trans_eq (List.length_map _)

/-- What has been loaded for a table is had again where it is all cached. -/
theorem binder_again (tidy : w.Tidy config) (bound : (binder id).run w = (.ok b, u))
    (complete : b.Complete) (tidy' : x.Tidy config) (warm : x.Warm id b) :
    ∃ y, (binder id).run x = (.ok b, y) ∧ x.Reread y := by
  obtain ⟨v, described, loop⟩ := binder_steps bound complete
  have first := (KeepsTidy.getColumns id).ran tidy described
  obtain ⟨apart, -⟩ := loop.reached ⟨first.tables.sound, first.types.sound⟩
  obtain ⟨y, columns, reread⟩ := getColumns_found tidy' warm.table
  have second := (KeepsTidy.getColumns id).ran tidy' columns
  have cached : ∀ d ∈ b.types, y.cached (.getType ⟨id.keyspace, d.1⟩) = some (.type d.2) :=
    fun d hd => (reread.cached _).trans (warm.types d hd)
  have few := length_le_places second apart cached
  obtain ⟨z, looped, reread'⟩ := loop.again rfl second cached
    (y.catalog.types.places.length + Store.typeCount y.store + 1)
    (by rw [List.length_nil]; omega)
  have resolved : (resolveTypes id.keyspace (b.entry.table.columns.map Column.type)).run y = (.ok b.types, z) :=
    (run_bind_ok (run_get y)).trans looped
  refine ⟨z, ?_, reread.trans reread'⟩
  rw [binder, run_bind_ok columns, run_bind_ok resolved]
  rfl

/-- A finished statement with a text to be prepared is had wherever that text is prepared as it was. -/
theorem finish_prepared {p : Plan} {ctx : Context} {c : Compiled} (prepares : p.prepare = true)
    (finished : (finish p ctx).run w = (.ok c, v)) :
    ∃ s, (prepare p.text).run w = (.ok s, v) ∧
      ∀ x y : World σ, (prepare p.text).run x = (.ok s, y) → (finish p ctx).run x = (.ok c, y) := by
  rw [finish, if_pos prepares] at finished
  obtain ⟨_, u, prepared, finished⟩ := run_bind_eq_ok.mp finished
  have prepared : (prepare p.text >>= fun s => pure (some s)).run w = _ := prepared
  obtain ⟨s, u', got, prepared⟩ := run_bind_eq_ok.mp prepared
  cases prepared
  cases finished
  refine ⟨s, got, fun x y again => ?_⟩
  rw [finish, if_pos prepares]
  exact run_bind_ok (run_bind_ok again)

/-- A finished statement with literals takes no more than it is given. -/
theorem finish_literal {p : Plan} {ctx : Context} {c : Compiled} (literal : p.prepare = false)
    (finished : (finish p ctx).run w = (.ok c, v)) :
    v = w ∧ ∀ x : World σ, (finish p ctx).run x = (.ok c, x) := by
  rw [finish, literal] at finished
  cases finished
  refine ⟨rfl, fun x => ?_⟩
  rw [finish, literal]
  rfl

/-- A statement is compiled again without a question to the store, and comes out as it was, if the types
that its table depends on have room in one shard of the cache; that is room for as many as the cache is made
for, if these are fewer than 32 (`Cache.shardCapacity_of_lt`). In between nothing has to do with the caches.
That the metadata is complete says that the loop in which types are resolved was not cut short. It never is
by a store that knows no more types than it counts (`binder_complete`). -/
theorem compile_again {q : Specification} {ctx : Context} {c : Compiled} (tidy : w.Tidy config)
    (first : (compile q ctx).run w = (.ok c, v)) (bound : (binder q.table).run w = (.ok b, u))
    (complete : b.Complete) (few : b.ReachesAtMost (Cache.shardCapacity config.typeCapacity))
    (idle : v.CachesKept x) :
    ∃ y, (compile q ctx).run x = (.ok c, y) ∧ x.Reread y := by
  obtain ⟨b', u', bound', planned, finished⟩ := compile_steps first
  cases bound.symm.trans bound'
  have warm := binder_warm tidy bound complete few
  have tidyBound := (KeepsTidy.binder q.table).ran tidy bound
  have tidyAfter := ((KeepsTidy.finish c.plan ctx).ran tidyBound finished).of_kept idle
  -- planning comes to the same in any world in which the metadata is cached
  have replanned (warm : v.Warm q.table b) : ∃ y, (compile q ctx).run x = (finish c.plan ctx).run y ∧
      x.Reread y ∧ y.Tidy config := by
    obtain ⟨y, again, reread⟩ := binder_again tidy bound complete tidyAfter
      (warm.of_same idle.tables idle.types)
    exact ⟨y, compile_run again planned, reread, (KeepsTidy.binder q.table).ran tidyAfter again⟩
  cases prepares : c.plan.prepare with
  | false =>
    obtain ⟨rfl, finish⟩ := finish_literal prepares finished
    obtain ⟨y, same, reread, -⟩ := replanned warm
    exact ⟨y, same.trans (finish y), reread⟩
  | true =>
    obtain ⟨s, prepared, finish⟩ := finish_prepared prepares finished
    obtain ⟨cached, tables, types⟩ := prepare_gives prepared
    obtain ⟨y, same, reread, tidyAgain⟩ := replanned (warm.of_same tables types)
    obtain ⟨z, again, reread'⟩ := prepare_found tidyAgain
      ((reread.cached _).trans ((idle.cached _).trans cached))
    exact ⟨z, same.trans (finish y z again), reread.trans reread'⟩

/-- Two types that need each other and share a third fill the cache. Everything else has room for one, and
has been used for another table before. The store is asked nothing, and so it may as well be gone. -/
theorem compile_again_full_caches :
    let id (name : String) : TableId := ⟨"shop", name⟩
    let table (name : String) (type : ColumnType) : Table :=
      ⟨id name, [⟨"id", .int, .partitionKey⟩, ⟨"sent", type, .regular⟩]⟩
    let config : Config :=
      { tableCapacity := 1, typeCapacity := 3, statementCapacity := 1, metadataExpiry := 10 }
    let store : Script := {
      tables := [table "orders" (.set (.udt "address")), table "parcels" (.udt "parcel")]
      types := [⟨⟨"shop", "address"⟩, [("city", .udt "city"), ("owner", .udt "person")]⟩,
        ⟨⟨"shop", "city"⟩, [("name", .text)]⟩,
        ⟨⟨"shop", "person"⟩, [("homes", .list (.udt "address")), ("born", .udt "city")]⟩,
        ⟨⟨"shop", "parcel"⟩, [("weight", .int)]⟩] }
    let w := ((Engine.new config store).run [.columns (id "parcels"), .type ⟨"shop", "parcel"⟩,
      .prepare "SELECT id FROM shop.parcels"]).world
    let q : Specification := .mutation (.write {
      table := id "orders"
      values := .ofList [("id", .int 1)] })
    ∃ c v b u, w.Tidy config ∧ (compile q {}).run w = (.ok c, v) ∧
      (binder q.table).run w = (.ok b, u) ∧ b.Complete ∧ b.types.length = 3 ∧ b.ReachesAtMost 3 ∧
      c.prepared = some ⟨"stmt-1", c.plan.text⟩ ∧
      let x : World Script := { v with store := {}, clock := v.clock + 5 }
      v.CachesKept x ∧ ∃ y, (compile q {}).run x = (.ok c, y) ∧ x.Reread y := by
  intro id table config store w q
  have tidy : w.Tidy config := (Engine.tidy_run ..).world
  obtain ⟨c, v, first⟩ : ∃ c v, (compile q {}).run w = (.ok c, v) := by
    have ok : ((compile q {}).run w).1.isOk = true := by decide +kernel
    rcases ran : (compile q {}).run w with ⟨e | c, v⟩
    · rw [ran] at ok
      cases ok
    · exact ⟨c, v, rfl⟩
  obtain ⟨b, u, bound, -⟩ := compile_steps first
  have complete : b.Complete := binder_complete store.schema_told (by decide +kernel) tidy
    store.schema_types_listed (fun _ same => store.schema_types_counted same) bound
  have three : b.types.length = 3 := by
    have found : ((binder q.table).run w).1.toOption.map (·.types.length) = some 3 := by decide +kernel
    rw [bound] at found
    exact Option.some.inj found
  have prepared : c.prepared = some ⟨"stmt-1", c.plan.text⟩ := by
    have known : ((compile q {}).run w).1.toOption.map
        (fun c => decide (c.prepared = some ⟨"stmt-1", c.plan.text⟩)) = some true := by decide +kernel
    rw [first] at known
    exact of_decide_eq_true (Option.some.inj known)
  have few : b.ReachesAtMost 3 := three ▸ complete.reachesAtMost
  have room : Cache.shardCapacity config.typeCapacity = 3 :=
    Cache.shardCapacity_of_lt (by decide) (by decide)
  have idle : v.CachesKept { v with store := {}, clock := v.clock + 5 } := ⟨rfl, rfl, rfl⟩
  exact ⟨c, v, b, u, tidy, first, bound, complete, three, few, prepared, idle,
    compile_again tidy first bound complete (room.symm ▸ few) idle⟩

/-- Two types in turn take the one place that there is, and both are asked for every time. -/
example :
    let id : TableId := ⟨"shop", "orders"⟩
    let store : Script := {
      tables := [⟨id, [⟨"id", .int, .partitionKey⟩, ⟨"sent", .udt "address", .regular⟩]⟩]
      types := [⟨⟨"shop", "address"⟩, [("city", .udt "city")]⟩, ⟨⟨"shop", "city"⟩, [("name", .text)]⟩] }
    let q : Specification := .read { table := id, cardinality := .many }
    let v := ((compile q {}).run (.new { typeCapacity := 1 } store)).2
    ((compile q {}).run v).2.events.length = v.events.length + 2 := by decide +kernel

end Op
end WideColumn
