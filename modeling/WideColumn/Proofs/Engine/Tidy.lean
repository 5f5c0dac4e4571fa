import WideColumn.Proofs.Cache.Recency
import WideColumn.Proofs.Engine.Course
import WideColumn.Proofs.Engine.Runs

/-!
All caches of an engine stay tidy, whatever it does and wherever it is interrupted: none has more places
than it was given room for, or two for one key.
-/
namespace WideColumn

variable {σ κ ν α β : Type} {config : Config}

namespace World

variable {w v : World σ}

structure Tidy (config : Config) (w : World σ) : Prop where
  tables : w.catalog.tables.Tidy config.tableCapacity
  types : w.catalog.types.Tidy config.typeCapacity
  statements : w.statements.Tidy config.statementCapacity

namespace Tidy

theorem new (config : Config) (store : σ) : (World.new config store).Tidy config :=
  ⟨.ofCapacity _, .ofCapacity _, .ofCapacity _⟩

theorem of_kept (tidy : w.Tidy config) (kept : w.CachesKept v) : v.Tidy config :=
  ⟨kept.tables ▸ tidy.tables, kept.types ▸ tidy.types, kept.statements ▸ tidy.statements⟩

theorem metadataDropped (tidy : w.Tidy config) : w.metadataDropped.Tidy config where
  tables := tidy.tables.of_sublist (List.nil_sublist _) rfl rfl rfl
  types := tidy.types.of_sublist (List.nil_sublist _) rfl rfl rfl
  statements := tidy.statements

theorem dropped (tidy : w.Tidy config) : w.dropped.Tidy config where
  tables := tidy.tables.of_sublist (List.nil_sublist _) rfl rfl rfl
  types := tidy.types.of_sublist (List.nil_sublist _) rfl rfl rfl
  statements := tidy.statements.of_sublist (List.nil_sublist _) rfl rfl rfl

theorem startRefresh (tidy : w.Tidy config) (driven : Bool) :
    World.Tidy config { w with catalog := w.catalog.startRefresh driven } :=
  tidy.of_kept ⟨Catalog.startRefresh_tables, Catalog.startRefresh_types, rfl⟩

end Tidy
end World

namespace Catalog

variable {c : Catalog} {id : TableId} {now : Nat} {answer : Except Fault (Option Table)}

theorem refreshed_types : (c.refreshed id now answer).types = c.types := by
  rcases answer with fault | _ | table <;> rfl

theorem refreshed_tidy {n : Nat} (tidy : c.tables.Tidy n) : (c.refreshed id now answer).tables.Tidy n := by
  rcases answer with fault | _ | table
  · exact tidy
  · exact tidy.of_sublist List.filter_sublist rfl rfl rfl
  · exact tidy.insert id _

end Catalog

/-- Of a tidy world the shelf gets a tidy cache, and puts one back. -/
structure Shelf.Tidy [Hashed κ] (config : Config) (n : Nat) (shelf : Shelf σ κ ν) : Prop where
  get {w : World σ} : w.Tidy config → (shelf.get w).Tidy n
  set {c : Cache κ ν} {w : World σ} : w.Tidy config → c.Tidy n → (shelf.set c w).Tidy config

namespace Shelf.Tidy

theorem tables : (Shelf.tables : Shelf σ _ _).Tidy config config.tableCapacity :=
  ⟨fun tidy => tidy.tables, fun tidy h => ⟨h, tidy.types, tidy.statements⟩⟩

theorem types : (Shelf.types : Shelf σ _ _).Tidy config config.typeCapacity :=
  ⟨fun tidy => tidy.types, fun tidy h => ⟨tidy.tables, h, tidy.statements⟩⟩

theorem statements : (Shelf.statements : Shelf σ _ _).Tidy config config.statementCapacity :=
  ⟨fun tidy => tidy.statements, fun tidy h => ⟨tidy.tables, tidy.types, h⟩⟩

end Shelf.Tidy

namespace Op

/-- However the operation ends, the caches are tidy if they were. -/
abbrev KeepsTidy (config : Config) (x : Op σ α) : Prop := Maintains (World.Tidy config) x

namespace KeepsTidy

theorem ask (request : σ → Except Fault α × σ) (event : Except Fault α → Event) :
    KeepsTidy config (Op.ask request event) := fun _ tidy => tidy.of_kept ⟨rfl, rfl, rfl⟩

theorem orFault (answer : Except Fault α) : KeepsTidy config (Op.orFault answer : Op σ α) := by
  cases answer <;> exact fun _ tidy => tidy

theorem tableEntry (id : TableId) (answer : Except Fault (Option Table)) :
    KeepsTidy config (Op.tableEntry id answer : Op σ TableEntry) := fun w tidy => by
  obtain ⟨outcome, ran, -⟩ := tableEntry_run id answer w
  rwa [ran]

theorem knownType (name : TypeName) (answer : Except Fault (Option UserType)) :
    KeepsTidy config (Op.knownType name answer : Op σ UserType) := fun w tidy => by
  obtain ⟨outcome, ran, -⟩ := knownType_run name answer w
  rwa [ran]

theorem serve (entry : TableEntry) : KeepsTidy config (Op.serve entry : Op σ TableEntry) := by
  intro w tidy
  rw [run_serve]
  dsimp only
  split
  · exact tidy.startRefresh true
  · exact tidy

theorem getOrLoad [DecidableEq κ] [Hashed κ] {n : Nat} {shelf : Shelf σ κ ν} (lawful : shelf.Tidy config n) (k : κ)
    {load : Op σ ν} (hl : KeepsTidy config load) : KeepsTidy config (Op.getOrLoad shelf k load) := by
  intro w tidy
  have acquired := lawful.set tidy ((lawful.get tidy).acquire k)
  have got := Op.got shelf k load w
  generalize (Op.getOrLoad shelf k load).run w = r at got
  cases got with
  | found => exact acquired
  | failed _ ran =>
    have loaded := hl _ acquired
    rwa [ran] at loaded
  | @loaded v u _ ran =>
    have loaded := hl _ acquired
    rw [ran] at loaded
    exact lawful.set loaded ((lawful.get loaded).settle _ v)

theorem invalidateMetadata : KeepsTidy config (Op.invalidateMetadata : Op σ Bool) := by
  intro w tidy
  rw [run_invalidateMetadata]
  split
  · exact tidy.metadataDropped
  · exact tidy

theorem cachedStatement (text : String) :
    KeepsTidy config (Op.cachedStatement text : Op σ (Option Prepared)) := fun _ tidy =>
  ⟨tidy.tables, tidy.types, tidy.statements.use (.get text : Cache.Use Unit _ _)⟩

variable [Store σ]

theorem getColumns (id : TableId) : KeepsTidy config (Op.getColumns id : Op σ TableEntry) :=
  .bind (getOrLoad .tables id (.bind (ask _ _) (tableEntry id))) serve

theorem getType (name : TypeName) : KeepsTidy config (Op.getType name : Op σ UserType) :=
  getOrLoad .types name (.bind (ask _ _) (knownType name))

theorem prepare (text : String) : KeepsTidy config (Op.prepare text : Op σ Prepared) :=
  getOrLoad .statements text (.bind (ask _ _) orFault)

theorem resolveFrom (keyspace : String) (bound : Nat) (pending : List String) (resolved : TypeDefs) :
    KeepsTidy config (Op.resolveFrom keyspace bound pending resolved : Op σ TypeDefs) := by
  induction bound generalizing pending resolved with
  | zero => exact .pure _
  | succ bound ih =>
    rw [Op.resolveFrom]
    split
    · exact .pure _
    · exact .bind (getType _) fun type => ih _ _

theorem binder (id : TableId) : KeepsTidy config (Op.binder id : Op σ Binder) :=
  .bind (getColumns id) fun _ => .bind (fun w => resolveFrom _ _ _ _ w) fun _ => .pure _

theorem finish (p : Plan) (ctx : Context) : KeepsTidy config (Op.finish p ctx : Op σ Compiled) := by
  rw [Op.finish]
  split
  · exact .bind (.bind (prepare _) fun _ => .pure _) fun _ => .pure _
  · exact .pure _

theorem dispatch (request : Request) (options : Options) :
    KeepsTidy config (Op.dispatch request options : Op σ Page) := by
  intro w tidy
  rw [run_dispatch]
  rcases Store.execute request options w.store with ⟨fault | page, store⟩ <;> dsimp only
  · have answered : (w.answered store (.execute request options (.error fault))).Tidy config :=
      tidy.of_kept ⟨rfl, rfl, rfl⟩
    split
    · exact answered.dropped
    · exact answered
  · exact tidy.of_kept ⟨rfl, rfl, rfl⟩

end KeepsTidy
end Op

namespace Lane

variable [DecidableEq κ] [Hashed κ] {n : Nat} {l : Lane σ κ ν} {w : World σ}

/-- A load that begins leaves tidy caches, and its end will. -/
theorem ask_tidy (lawful : l.shelf.Tidy config n)
    (asks : ∀ k, (l.load k).KeepsTidy config)
    (ends : ∀ k w rest v, (l.load k).run w = (.ok rest, v) → rest.KeepsTidy config)
    (k : κ) (tidy : w.Tidy config) :
    (l.ask k w).2.Tidy config ∧ ∀ i ∈ (l.ask k w).1, i.rest.KeepsTidy config := by
  have acquired := lawful.set tidy ((lawful.get tidy).acquire k)
  cases hv : ((l.shelf.get w).acquire k).1.value with
  | some v =>
    rw [ask_found hv]
    exact ⟨acquired, List.forall_mem_nil _⟩
  | none =>
    have asked := asks k _ acquired
    rcases ran : (l.load k).run (l.shelf.set ((l.shelf.get w).acquire k).2 w) with ⟨e | rest, u⟩ <;>
      rw [ran] at asked
    · simp only [Lane.ask, hv, ran]
      exact ⟨asked, List.forall_mem_nil _⟩
    · rw [ask_empty hv ran]
      exact ⟨asked, List.forall_mem_singleton.mpr (ends k _ rest u ran)⟩

omit [DecidableEq κ] in
theorem answer_tidy (lawful : l.shelf.Tidy config n) {i : Inquiry σ κ ν}
    (ends : i.rest.KeepsTidy config) (tidy : w.Tidy config) : (l.answer i w).Tidy config := by
  have ended := ends w tidy
  rcases ran : i.rest.run w with ⟨e | v, u⟩ <;> rw [ran] at ended <;> rw [answer, ran]
  · exact ended
  · dsimp only
    split
    · exact lawful.set ended ((lawful.get ended).settle i.slot v)
    · exact ended

end Lane

namespace Engine

variable {e : Engine σ}

/-- The caches are tidy, and will be when a load ends. -/
structure Tidy (config : Config) (e : Engine σ) : Prop where
  world : e.world.Tidy config
  tables : ∀ i ∈ e.tables, i.rest.KeepsTidy config
  types : ∀ i ∈ e.types, i.rest.KeepsTidy config

theorem Tidy.keepAnswer (tidy : e.Tidy config) (v : Visit) : (e.keepAnswer v).Tidy config := by
  have types : (e.keepAnswer v).catalog.types = e.catalog.types := Catalog.refreshed_types
  exact ⟨⟨Catalog.refreshed_tidy tidy.world.tables, types ▸ tidy.world.types, tidy.world.statements⟩,
    tidy.tables, tidy.types⟩

variable [Store σ]

theorem Tidy.visitNext (tidy : e.Tidy config) (ids : List TableId) : (e.visitNext ids).Tidy config := by
  cases ids <;> exact ⟨tidy.world.of_kept ⟨rfl, rfl, rfl⟩, tidy.tables, tidy.types⟩

theorem Tidy.step (tidy : e.Tidy config) (m : Move σ) : (e.step m).Tidy config := by
  have ran {α : Type} {x : Op σ α} (hx : x.KeepsTidy config) :
      Tidy config { e with world := (x.run e.world).2 } := ⟨hx _ tidy.world, tidy.tables, tidy.types⟩
  cases m with
  | columns id => exact ran (.getColumns id)
  | type name => exact ran (.getType name)
  | prepare text => exact ran (.prepare text)
  | cached text => exact ran (.cachedStatement text)
  | execute request options => exact ran (.dispatch request options)
  | serve entry => exact ran (.serve entry)
  | askTable id =>
    have asked := Lane.ask_tidy (l := Lane.tables) .tables (fun _ _ tidy => tidy.of_kept ⟨rfl, rfl, rfl⟩)
      (fun id w rest v same => Except.ok.inj (Prod.mk.inj same).1 ▸ .tableEntry id _) id tidy.world
    exact ⟨asked.1, List.forall_mem_append.mpr ⟨tidy.tables, asked.2⟩, tidy.types⟩
  | askType name =>
    have asked := Lane.ask_tidy (l := Lane.types) .types (fun _ _ tidy => tidy.of_kept ⟨rfl, rfl, rfl⟩)
      (fun name w rest v same => Except.ok.inj (Prod.mk.inj same).1 ▸ .knownType name _) name tidy.world
    exact ⟨asked.1, tidy.tables, List.forall_mem_append.mpr ⟨tidy.types, asked.2⟩⟩
  | answerTable n =>
    rw [Engine.step]
    split
    · rename_i i hi
      exact ⟨Lane.answer_tidy .tables (tidy.tables i (List.mem_of_getElem? hi)) tidy.world,
        fun j hj => tidy.tables j (List.mem_of_mem_eraseIdx hj), tidy.types⟩
    · exact tidy
  | answerType n =>
    rw [Engine.step]
    split
    · rename_i i hi
      exact ⟨Lane.answer_tidy .types (tidy.types i (List.mem_of_getElem? hi)) tidy.world, tidy.tables,
        fun j hj => tidy.types j (List.mem_of_mem_eraseIdx hj)⟩
    · exact tidy
  | advance =>
    rw [step_advance]
    split
    · exact (tidy.keepAnswer _).visitNext _
    · split
      · exact tidy.visitNext _
      · exact tidy
  | cut => exact ⟨tidy.world.of_kept ⟨rfl, rfl, rfl⟩, tidy.tables, tidy.types⟩
  | invalidate => exact ran .invalidateMetadata
  | wait ms => exact ⟨tidy.world.of_kept ⟨rfl, rfl, rfl⟩, tidy.tables, tidy.types⟩
  | change store => exact ⟨tidy.world.of_kept ⟨rfl, rfl, rfl⟩, tidy.tables, tidy.types⟩
  | evict tables types =>
    exact ⟨⟨tidy.world.tables.of_sublist List.filter_sublist rfl rfl rfl,
      tidy.world.types.of_sublist List.filter_sublist rfl rfl rfl, tidy.world.statements⟩, tidy.tables,
      tidy.types⟩

theorem tidy_run (config : Config) (store : σ) (moves : List (Move σ)) :
    ((new config store).run moves).Tidy config :=
  run_induction ⟨.new config store, List.forall_mem_nil _, List.forall_mem_nil _⟩ fun before m _ tidy => by
    rw [run_concat]
    exact tidy.step m

end Engine
end WideColumn
