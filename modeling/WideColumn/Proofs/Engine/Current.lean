import Mathlib.Data.List.Infix
import WideColumn.Proofs.Engine.Due
import WideColumn.Proofs.Engine.TextKey

/-!
What statements are compiled with after a refresh has ended. The columns are those that the store held
when the refresh asked for them. Types are not part of a refresh: one that is cached stays as it is.
-/
namespace WideColumn

variable {σ : Type}

/-- What there is to be told of tables and types. -/
structure Schema where
  table : TableId → Option Table
  type : TypeName → Option UserType

/-- In these states a store tells of this schema, if it answers at all. No question leads out of them. -/
structure Schema.Told [Store σ] (schema : Schema) (states : σ → Prop) : Prop where
  prepare {s : σ} (text : String) : states s → states (Store.prepare text s).2
  describeTable {s : σ} (id : TableId) : states s → states (Store.describeTable id s).2
  describeType {s : σ} (name : TypeName) : states s → states (Store.describeType name s).2
  tables {s : σ} {id : TableId} {known : Option Table} : states s →
    (Store.describeTable id s).1 = .ok known → known = schema.table id
  types {s : σ} {name : TypeName} {known : Option UserType} : states s →
    (Store.describeType name s).1 = .ok known → known = schema.type name

namespace Script

theorem describe_state {α : Type} (s : Script) (known : Option α) : (s.describe known).2 = s := by
  rw [describe]
  cases s.describeFault <;> rfl

theorem describe_told {α : Type} {s : Script} {known told : Option α}
    (h : (s.describe known).1 = .ok told) : told = known := by
  rw [describe] at h
  cases hf : s.describeFault <;> rw [hf] at h
  · exact (Except.ok.inj h).symm
  · cases h

def schema (s : Script) : Schema where
  table id := s.tables.find? (·.id = id)
  type name := s.types.find? (·.name = name)

abbrev SameSchema (s t : Script) : Prop := t.tables = s.tables ∧ t.types = s.types

/-- A script tells of its tables and types, also when something else of it changes. -/
theorem schema_told (s : Script) : s.schema.Told s.SameSchema where
  prepare {t} text h := by
    have same : (t.prepare text).2.tables = t.tables ∧ (t.prepare text).2.types = t.types := by
      rw [prepare]
      split <;> exact ⟨rfl, rfl⟩
    exact ⟨same.1.trans h.1, same.2.trans h.2⟩
  describeTable {t} id h := by rwa [show (Store.describeTable id t).2 = t from describe_state ..]
  describeType {t} name h := by rwa [show (Store.describeType name t).2 = t from describe_state ..]
  tables h told := by rw [describe_told told, h.1, schema]
  types h told := by rw [describe_told told, h.2, schema]

theorem schema_types_listed (s : Script) (name : TypeName) (there : (s.schema.type name).isSome) :
    name ∈ s.types.map UserType.name := by
  obtain ⟨d, hd⟩ := Option.isSome_iff_exists.mp there
  change s.types.find? (·.name = name) = some d at hd
  have same : d.name = name := by simpa using List.find?_some hd
  exact same ▸ List.mem_map_of_mem (List.mem_of_find?_eq_some hd)

theorem schema_types_counted (s : Script) {t : Script} (same : s.SameSchema t) :
    (s.types.map UserType.name).length ≤ Store.typeCount t := by
  rw [List.length_map, ← same.2]
  exact le_rfl

end Script

/-- Anything may be told in any state. -/
def Outlook.any : Outlook σ := ⟨fun _ => True, fun _ _ _ => True, fun _ _ => True⟩

theorem Outlook.any_holds [Store σ] : (any : Outlook σ).Holds := by constructor <;> intros <;> trivial

namespace Engine

/-- The definition is cached, or is what a load that is under way has been told. -/
inductive Knows (e : Engine σ) (name : TypeName) (type : UserType) : Prop
  | cached {p : Place TypeName UserType} : p ∈ e.catalog.types.places → p.key = name →
      p.value = some type → Knows e name type
  | loading {i : Inquiry σ TypeName UserType} {w : World σ} : i ∈ e.types → i.key = name →
      (i.rest.run w).1 = .ok type → Knows e name type

/-- Entries of the table in places that are made from now on are of the schema. Types are too, or are
known already. -/
def outlook (e : Engine σ) (schema : Schema) (states : σ → Prop) (id : TableId) : Outlook σ where
  store := states
  entry k slot entry := k = id → e.catalog.tables.nextSlot ≤ slot → schema.table id = some entry.table
  type name type := schema.type name = some type ∨ e.Knows name type

section Start

variable {e : Engine σ} {schema : Schema} {states : σ → Prop} {id : TableId}

theorem keeps_new (config : Config) (store : σ) : (new config store).Keeps .any where
  store := trivial
  sound := ⟨.of_empty rfl, .of_empty rfl⟩
  entries := nofun
  known := nofun
  tableLoads := nofun
  typeLoads := nofun
  visit := nofun

/-- What is there already is outside of what the outlook speaks of. -/
theorem Keeps.outlook (keeps : e.Keeps .any) (store : states e.world.store)
    (visit : ∀ v, e.visit = some v → v.table = id → v.answer = .ok (schema.table id)) :
    e.Keeps (e.outlook schema states id) where
  store := store
  sound := keeps.sound
  entries p hp _ _ _ late := absurd (keeps.sound.tables.slots p hp) (Nat.not_lt.mpr late)
  known p hp _ hv := .inr (.cached hp rfl hv)
  tableLoads i hi := by
    have fits := keeps.tableLoads i hi
    refine ⟨fits.slot, fits.key, fun w => ?_⟩
    obtain ⟨outcome, ran, -⟩ := fits.rest w
    exact ⟨outcome, ran, fun _ _ _ late => absurd fits.slot (Nat.not_lt.mpr late)⟩
  typeLoads i hi := by
    have fits := keeps.typeLoads i hi
    refine ⟨fits.slot, fits.key, fun w => ?_⟩
    obtain ⟨outcome, ran, -⟩ := fits.rest w
    exact ⟨outcome, ran, fun type same => .inr (.loading hi rfl ((congrArg Prod.fst ran).trans same))⟩
  visit v hv := by
    refine ⟨(keeps.visit v hv).1, fun table answer slot now key _ => ?_⟩
    exact Except.ok.inj ((visit v hv key).symm.trans answer)

variable [Store σ]

theorem outlook_holds (e : Engine σ) (id : TableId) (told : schema.Told states) :
    (e.outlook schema states id).Holds where
  prepare text := told.prepare text
  describeTable := told.describeTable
  describeType := told.describeType
  entries := by
    rintro s _ table hs answer slot now rfl -
    exact (told.tables hs answer).symm
  types hs answer := .inl (told.types hs answer).symm

end Start

section Observed

variable [Store σ] {e : Engine σ} {id : TableId} {told : Option Table} {entry : TableEntry}

/-- An entry that is found expired has been in the cache, and there is a refresh now. -/
theorem getColumns_expired {w : World σ} (found : ((Op.getColumns id).run w).1 = .ok entry)
    (expired : entry.isExpired w.clock w.catalog.expiry = true) :
    (w.catalog.tables.acquire id).1.value = some entry ∧
      ((Op.getColumns id).run w).2 = { w with catalog :=
        { w.catalog with tables := (w.catalog.tables.acquire id).2 }.startRefresh true } := by
  have got := Op.got Shelf.tables id (do
    Op.tableEntry id (← Op.ask (Store.describeTable id) (.describeTable id))) w
  rw [Op.getColumns, Op.run_bind] at found ⊢
  generalize (Op.getOrLoad Shelf.tables id _).run w = r at got found ⊢
  cases got with
  | failed => cases found
  | @found v value =>
    dsimp only at found ⊢
    rw [Op.run_serve] at found ⊢
    obtain rfl := Except.ok.inj found
    exact ⟨value, if_pos expired⟩
  | @loaded v u none ran =>
    dsimp only at found
    rw [Op.run_serve] at found
    obtain rfl := Except.ok.inj found
    -- What has just been loaded is not expired.
    rw [Op.tableLoad_run] at ran
    obtain ⟨outcome, same, told⟩ := Op.tableEntry_run id (Store.describeTable id w.store).1
      (World.answered (Shelf.tables.set ((Shelf.tables.get w).acquire id).2 w)
        (Store.describeTable id w.store).2 (.describeTable id (Store.describeTable id w.store).1))
    obtain ⟨rfl, -⟩ := Prod.mk.inj (same.symm.trans ran)
    have now : v.loadedAt = w.clock := (told v rfl).2
    simp [TableEntry.isExpired, now] at expired

/-- Whatever was there of a table that has been found expired is going to be replaced. -/
theorem due_of_expired (keeps : e.Keeps .any) (idle : e.catalog.refreshing = false)
    (found : ((Op.getColumns id).run e.world).1 = .ok entry)
    (expired : entry.isExpired e.world.clock e.catalog.expiry = true) :
    (e.step (.columns id)).Due id told (e.step (.columns id)).catalog.tables.nextSlot := by
  obtain ⟨value, after⟩ := getColumns_expired found expired
  have unvisited : e.visit = none := by
    cases hv : e.visit with
    | none => rfl
    | some v => exact absurd (idle.symm.trans (keeps.visit v hv).1) Bool.false_ne_true
  rw [step, after]
  refine ⟨Nat.le_refl _, fun p hp key _ => ⟨Catalog.startRefresh_refreshing, ?_⟩⟩
  rw [ComesTo]
  dsimp only
  rw [unvisited]
  rw [Catalog.startRefresh_tables] at hp
  refine ⟨entry, ?_, ?_⟩
  · rw [Cache.eq_acquired hp key]
    exact value
  · rw [Catalog.startRefresh_expiry]
    exact expired

end Observed

section Told

variable [Store σ] {a e : Engine σ} {o : Outlook σ} {schema : Schema} {states : σ → Prop} {id : TableId}
  {w : World σ}

/-- Columns that are asked for come from a place made since, or from the store. -/
theorem getColumns_told (told : schema.Told states) (keeps : e.Keeps (a.outlook schema states id))
    (renewed : e.Renewed id a.catalog.tables.nextSlot) {entry : TableEntry}
    (ran : (Op.getColumns id).run e.world = (.ok entry, w)) : schema.table id = some entry.table := by
  obtain ⟨entry', u, got, served⟩ := Op.run_bind_eq_ok.mp ran
  rw [Op.run_serve] at served
  obtain rfl := Except.ok.inj (congrArg Prod.fst served)
  obtain ⟨p, hp, key, value⟩ | ⟨_, loaded⟩ := Op.getOrLoad_ok got
  · exact keeps.entries p hp entry' value key (renewed.places p hp key)
  · rw [Op.tableLoad_run] at loaded
    obtain ⟨outcome, same, answer⟩ := Op.tableEntry_run id (Store.describeTable id e.world.store).1 _
    obtain ⟨rfl, -⟩ := Prod.mk.inj (same.symm.trans loaded)
    exact (told.tables keeps.store (answer entry' rfl).1).symm

theorem resolveFrom_told (ho : o.Holds) (keeps : e.Keeps o) {keyspace : String} {bound : Nat}
    {pending : List String} {resolved types : TypeDefs}
    (known : ∀ t ∈ resolved, o.type ⟨keyspace, t.1⟩ t.2)
    (ran : (Op.resolveFrom keyspace bound pending resolved).run e.world = (.ok types, w)) :
    ∀ t ∈ types, o.type ⟨keyspace, t.1⟩ t.2 := by
  induction bound generalizing pending resolved e with
  | zero =>
    obtain ⟨⟨⟩, -⟩ := Prod.mk.inj ran
    exact known
  | succ bound ih =>
    rw [Op.resolveFrom] at ran
    split at ran
    · obtain ⟨⟨⟩, -⟩ := Prod.mk.inj ran
      exact known
    · rename_i name rest _
      obtain ⟨type, u, first, others⟩ := Op.run_bind_eq_ok.mp ran
      have developed := Op.develops_getType ho ⟨keyspace, name⟩ e.world keeps.store keeps.sound
      rw [first] at developed
      have told := Op.getType_ok ho ⟨keeps.store, keeps.sound, keeps.known⟩ first
      exact ih (keeps.develops developed) (List.forall_mem_cons.mpr ⟨told, known⟩) others

end Told

section Main

variable [Store σ] {a e : Engine σ} {schema : Schema} {states : σ → Prop} {id : TableId}

/-- What a compilation goes by: the columns are of the schema, and each type is of the schema or was
known to this engine. -/
structure Current (a : Engine σ) (schema : Schema) (id : TableId) (b : Binder) : Prop where
  columns : schema.table id = some b.entry.table
  types : ∀ t ∈ b.types, schema.type ⟨id.keyspace, t.1⟩ = some t.2 ∨ a.Knows ⟨id.keyspace, t.1⟩ t.2

theorem binder_current {w : World σ} {b : Binder} (told : schema.Told states)
    (keeps : e.Keeps (a.outlook schema states id)) (renewed : e.Renewed id a.catalog.tables.nextSlot)
    (ran : (Op.binder id).run e.world = (.ok b, w)) : a.Current schema id b := by
  obtain ⟨entry, u, columns, rest⟩ := Op.run_bind_eq_ok.mp ran
  obtain ⟨types, u', resolved, made⟩ := Op.run_bind_eq_ok.mp rest
  obtain ⟨⟨⟩, -⟩ := Prod.mk.inj made
  have ho := a.outlook_holds id told
  have developed := Op.develops_getColumns ho id e.world keeps.store keeps.sound
  rw [columns] at developed
  refine ⟨getColumns_told told keeps renewed columns, ?_⟩
  exact resolveFrom_told ho (keeps.develops developed) (fun _ h => absurd h List.not_mem_nil) resolved

/-- The engine has come to be as it is by some moves from the start. -/
def Reached (e : Engine σ) : Prop := ∃ config store moves, e = (new config store).run moves

/-- A table is found expired, which starts a refresh. The schema settles at once, or while the table is
still before the refresh. Then the refresh is not dropped, the store answers all its questions, and it
ends. -/
structure Refreshes (id : TableId) (schema : Schema) (e settled : Engine σ) (moves : List (Move σ)) :
    Prop where
  idle : e.catalog.refreshing = false
  expired : ∃ entry, ((Op.getColumns id).run e.world).1 = .ok entry ∧
    entry.isExpired e.world.clock e.catalog.expiry = true
  settles : settled = e.step (.columns id) ∨ ∃ early v, settled = (e.step (.columns id)).run early ∧
    settled.visit = some v ∧ v.Covers id (schema.table id)
  undropped : .cut ∉ moves
  answered : ∀ taken, taken <+: moves → (settled.run taken).Answered
  ended : (settled.run moves).catalog.refreshing = false

theorem Reached.keeps (reached : e.Reached) : e.Keeps .any := by
  obtain ⟨config, store, moves, rfl⟩ := reached
  exact (keeps_new config store).run Outlook.any_holds fun _ _ => trivial

theorem Reached.run (reached : e.Reached) (moves : List (Move σ)) : (e.run moves).Reached := by
  obtain ⟨config, store, past, rfl⟩ := reached
  exact ⟨config, store, past ++ moves, (run_append ..).symm⟩

/-- When the schema has settled, all that is old of the table is going to be replaced. -/
theorem Refreshes.due {moves : List (Move σ)} (r : Refreshes id schema e a moves) (reached : e.Reached) :
    a.Reached ∧ (∀ v, a.visit = some v → v.table = id → v.answer = .ok (schema.table id)) ∧
      a.Due id (schema.table id) a.catalog.tables.nextSlot := by
  obtain rfl | ⟨early, v, rfl, hv, covers⟩ := r.settles
  · have idle : e.visit = none := by
      cases hv : e.visit with
      | none => rfl
      | some v => exact absurd (r.idle.symm.trans (reached.keeps.visit v hv).1) Bool.false_ne_true
    obtain ⟨entry, found, expired⟩ := r.expired
    refine ⟨reached.run [.columns id], fun v hv => ?_, due_of_expired reached.keeps r.idle found expired⟩
    cases idle.symm.trans hv
  · have reached' := (reached.run [.columns id]).run early
    refine ⟨reached', fun u hu => Option.some.inj (hv.symm.trans hu) ▸ covers.answer, Nat.le_refl _, ?_⟩
    refine fun p _ _ _ => ⟨(reached'.keeps.visit v hv).1, ?_⟩
    rw [ComesTo]
    split
    · rename_i u hu
      exact Option.some.inj (hv.symm.trans hu) ▸ covers
    · rename_i none
      cases none.symm.trans hv

/-- Once a refresh that was started when the table was found expired has ended, statements on the table
are compiled with the columns of the schema, for as long as the schema stays as it is. Of the types,
only those are of the schema that the engine did not know before. -/
theorem current_after_refresh {moves later : List (Move σ)} (told : schema.Told states)
    (reached : e.Reached) (r : Refreshes id schema e a moves)
    (steady : ∀ taken, taken <+: moves ++ later → states (a.run taken).world.store) :
    (∀ b w, (Op.binder id).run (a.run (moves ++ later)).world = (.ok b, w) → a.Current schema id b) ∧
      ∀ q ctx c w, q.table = id → (Op.compile q ctx).run (a.run (moves ++ later)).world = (.ok c, w) →
        ∃ b, a.Current schema id b ∧ q.plan b = .ok c.plan := by
  obtain ⟨reached', visit, due⟩ := r.due reached
  have ho := a.outlook_holds id told
  have start := reached'.keeps.outlook (steady [] List.nil_prefix) visit
  have first (taken) (h : taken <+: moves) := steady taken (h.trans (List.prefix_append ..))
  have swept := due.run ho start first r.undropped (fun _ _ => told.tables) r.answered
  have kept := start.run ho fun taken h => steady taken h
  have renewed := (swept.renewed r.ended).run ho (start.run ho first) fun taken h => by
    rw [← run_append]
    exact steady _ ((List.prefix_append_right_inj moves).mpr h)
  rw [← run_append] at renewed
  have current (b w) (ran : (Op.binder id).run (a.run (moves ++ later)).world = (.ok b, w)) :
      a.Current schema id b := binder_current told kept renewed ran
  refine ⟨current, ?_⟩
  rintro q ctx c w rfl compiled
  obtain ⟨b, u, bound, planned, -⟩ := Op.compile_steps compiled
  exact ⟨b, current b u bound, planned⟩

/-- A column has been added to the table before the refresh asks for it. -/
theorem current_after_column_added :
    let id : TableId := ⟨"shop", "orders"⟩
    let table (columns : List Column) : Table := ⟨id, ⟨"id", .int, .partitionKey⟩ :: columns⟩
    let store : Script := { tables := [table [⟨"state", .text, .regular⟩]] }
    let e := (new { metadataExpiry := 10 } { tables := [table []] }).run
      [.columns id, .change store, .wait 11]
    let a := e.step (.columns id)
    let moves : List (Move Script) := [.advance, .wait 2, .advance]
    let later : List (Move Script) := [.prepare "SELECT id FROM shop.orders"]
    let q : Specification := .mutation (.write {
      table := id
      values := .ofList [("id", .int 1), ("state", .text "new")] })
    store.schema.Told store.SameSchema ∧ e.Reached ∧ Refreshes id store.schema e a moves ∧
      (∀ taken, taken <+: moves ++ later → store.SameSchema (a.run taken).world.store) ∧
      ∃ c w b, (Op.compile q {}).run (a.run (moves ++ later)).world = (.ok c, w) ∧
        a.Current store.schema id b ∧ q.plan b = .ok c.plan := by
  intro id table store e a moves later q
  have reached : e.Reached := ⟨_, _, _, rfl⟩
  have r : Refreshes id store.schema e a moves := {
    idle := rfl
    expired := ⟨⟨table [], 0⟩, by decide +kernel, by decide +kernel⟩
    settles := .inl rfl
    undropped := by simp [moves]
    answered := by
      simp only [← List.mem_inits]
      decide +kernel
    ended := by decide +kernel }
  have steady : ∀ taken, taken <+: moves ++ later → store.SameSchema (a.run taken).world.store := by
    simp only [← List.mem_inits]
    decide +kernel
  have ok : ((Op.compile q {}).run (a.run (moves ++ later)).world).1.isOk = true := by decide +kernel
  obtain ⟨c, w, compiled⟩ : ∃ c w, (Op.compile q {}).run (a.run (moves ++ later)).world = (.ok c, w) := by
    rcases h : (Op.compile q {}).run (a.run (moves ++ later)).world with ⟨fault | c, w⟩
    · rw [h] at ok
      cases ok
    · exact ⟨c, w, rfl⟩
  obtain ⟨-, current⟩ := current_after_refresh store.schema_told reached r steady
  obtain ⟨b, current, planned⟩ := current q {} c w rfl compiled
  exact ⟨store.schema_told, reached, r, steady, c, w, b, compiled, current, planned⟩

/-- A type that has been cached stays as it was, though the store has it otherwise when the table is
refreshed: a value that does not fit any more is compiled. -/
theorem cached_type_outlasts_refresh :
    let id : TableId := ⟨"shop", "orders"⟩
    let table : Table := ⟨id, [⟨"id", .int, .partitionKey⟩, ⟨"home", .udt "address", .regular⟩]⟩
    let address (zip : ColumnType) : UserType := ⟨⟨"shop", "address"⟩, [("zip", zip)]⟩
    let store : Script := { tables := [table], types := [address .text] }
    let e := (new { metadataExpiry := 10 } { tables := [table], types := [address .int] }).run
      [.columns id, .type ⟨"shop", "address"⟩, .change store, .wait 11]
    let a := e.step (.columns id)
    let moves : List (Move Script) := [.advance, .wait 2, .advance]
    let q : Specification := .mutation (.write {
      table := id
      values := .ofList [("id", .int 1), ("home", .fields [("zip", .int 12345)])] })
    store.schema.Told store.SameSchema ∧ e.Reached ∧ Refreshes id store.schema e a moves ∧
      (∀ taken, taken <+: moves → store.SameSchema (a.run taken).world.store) ∧
      ∃ c w b v, (Op.compile q {}).run (a.run moves).world = (.ok c, w) ∧
        (Op.binder id).run (a.run moves).world = (.ok b, v) ∧ q.plan b = .ok c.plan ∧
        b.types = [("address", address .int)] ∧
        store.schema.type ⟨"shop", "address"⟩ = some (address .text) ∧
        (q.plan ⟨b.entry, [("address", address .text)]⟩).isOk = false := by
  intro id table address store e a moves q
  have reached : e.Reached := ⟨_, _, _, rfl⟩
  have r : Refreshes id store.schema e a moves := {
    idle := rfl
    expired := ⟨⟨table, 0⟩, by decide +kernel, by decide +kernel⟩
    settles := .inl rfl
    undropped := by simp [moves]
    answered := by
      simp only [← List.mem_inits]
      decide +kernel
    ended := by decide +kernel }
  have steady : ∀ taken, taken <+: moves → store.SameSchema (a.run taken).world.store := by
    simp only [← List.mem_inits]
    decide +kernel
  have ok : ((Op.compile q {}).run (a.run moves).world).1.isOk = true := by decide +kernel
  have old : ((Op.binder id).run (a.run moves).world).1.toOption.map (fun b => (b.entry, b.types)) =
      some (⟨table, 13⟩, [("address", address .int)]) := by decide +kernel
  rcases h : (Op.compile q {}).run (a.run moves).world with ⟨fault | c, w⟩
  · rw [h] at ok
    cases ok
  · obtain ⟨⟨entry, types⟩, v, bound, planned, -⟩ := Op.compile_steps h
    have bound : (Op.binder id).run (a.run moves).world = (.ok ⟨entry, types⟩, v) := bound
    rw [bound] at old
    obtain ⟨rfl, rfl⟩ := Prod.mk.inj (Option.some.inj old)
    exact ⟨store.schema_told, reached, r, steady, c, w, _, v, rfl, bound, planned, rfl, by decide +kernel,
      by decide +kernel⟩

end Main

end Engine
end WideColumn
