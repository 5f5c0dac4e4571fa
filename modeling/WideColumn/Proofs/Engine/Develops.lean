import WideColumn.Proofs.Cache.Evolves
import WideColumn.Proofs.Engine.Events

/-!
What operations do to the metadata that is cached, as long as the store gives answers of a certain sort
and will go on doing so. Values come from such answers; nothing else is ever put into a place.
-/
namespace WideColumn

variable {σ α β : Type}

/-- Answers of the store that one goes by: which states it may be in, and what it may say in them of a
table and of a type. -/
structure Outlook (σ : Type) where
  store : σ → Prop
  /-- The slot is that of the place where the entry will be. -/
  entry : TableId → Nat → TableEntry → Prop
  type : TypeName → UserType → Prop

/-- No question leads out of these states, and whatever is described in them is as it may be. -/
structure Outlook.Holds [Store σ] (o : Outlook σ) : Prop where
  prepare {s : σ} (text : String) : o.store s → o.store (Store.prepare text s).2
  describeTable {s : σ} (id : TableId) : o.store s → o.store (Store.describeTable id s).2
  describeType {s : σ} (name : TypeName) : o.store s → o.store (Store.describeType name s).2
  entries {s : σ} {id : TableId} {table : Table} : o.store s →
    (Store.describeTable id s).1 = .ok (some table) → ∀ slot now, o.entry id slot ⟨table, now⟩
  types {s : σ} {name : TypeName} {type : UserType} : o.store s →
    (Store.describeType name s).1 = .ok (some type) → o.type name type

namespace World

variable {o : Outlook σ} {w v u : World σ}

structure Sound (w : World σ) : Prop where
  tables : w.catalog.tables.Sound
  types : w.catalog.types.Sound

/-- The one world comes about from the other. -/
structure Develops (o : Outlook σ) (w v : World σ) : Prop where
  store : o.store v.store
  tables : w.catalog.tables.Evolves o.entry v.catalog.tables
  types : w.catalog.types.Evolves (fun name _ type => o.type name type) v.catalog.types
  flag : w.catalog.refreshing = true → v.catalog.refreshing = true
  clock : w.clock ≤ v.clock
  expiry : v.catalog.expiry = w.catalog.expiry

namespace Develops

theorem sound (h : w.Develops o v) (sound : w.Sound) : v.Sound :=
  ⟨h.tables.sound sound.tables, h.types.sound sound.types⟩

theorem trans (h : w.Develops o v) (h' : v.Develops o u) : w.Develops o u where
  store := h'.store
  tables := h.tables.trans h'.tables
  types := h.types.trans h'.types
  flag := h'.flag ∘ h.flag
  clock := Nat.le_trans h.clock h'.clock
  expiry := h'.expiry.trans h.expiry

/-- The metadata is as it was. -/
theorem of_same (store : o.store v.store) (catalog : v.catalog = w.catalog) (clock : w.clock ≤ v.clock) :
    w.Develops o v where
  store := store
  tables := catalog ▸ .refl _
  types := catalog ▸ .refl _
  flag := by rw [catalog]; exact id
  clock := clock
  expiry := by rw [catalog]

theorem of_tables {tables : Cache TableId TableEntry} (store : o.store v.store)
    (catalog : v.catalog = { w.catalog with tables }) (clock : v.clock = w.clock)
    (h : w.catalog.tables.Evolves o.entry tables) : w.Develops o v where
  store := store
  tables := catalog ▸ h
  types := catalog ▸ .refl _
  flag := by rw [catalog]; exact id
  clock := Nat.le_of_eq clock.symm
  expiry := by rw [catalog]

theorem of_types {types : Cache TypeName UserType} (store : o.store v.store)
    (catalog : v.catalog = { w.catalog with types }) (clock : v.clock = w.clock)
    (h : w.catalog.types.Evolves (fun name _ type => o.type name type) types) : w.Develops o v where
  store := store
  tables := catalog ▸ .refl _
  types := catalog ▸ h
  flag := by rw [catalog]; exact id
  clock := Nat.le_of_eq clock.symm
  expiry := by rw [catalog]

/-- The metadata has been dropped. -/
theorem of_dropped (store : o.store w.store) : w.Develops o w.metadataDropped :=
  ⟨store, .of_subset (List.nil_subset _) rfl, .of_subset (List.nil_subset _) rfl, id, Nat.le_refl _, rfl⟩

end Develops
end World

namespace Op

open World (Develops)

/-- From a sound world with a store that one goes by, all that the operation does is to develop it. -/
def Develops (o : Outlook σ) (x : Op σ α) : Prop :=
  ∀ w : World σ, o.store w.store → w.Sound → w.Develops o (x.run w).2

variable {o : Outlook σ} {w : World σ}

theorem Develops.bind {x : Op σ α} {k : α → Op σ β} (hx : Develops o x) (hk : ∀ a, Develops o (k a)) :
    Develops o (x >>= k) := by
  intro w hw sound
  have first := hx w hw sound
  rcases run : x.run w with ⟨e | a, v⟩ <;> rw [run] at first
  · rwa [run_bind_error run]
  · rw [run_bind_ok run]
    exact first.trans (hk a v first.store (first.sound sound))

theorem develops_serve (entry : TableEntry) : Develops o (serve entry) := by
  intro w hw _
  rw [serve, run_bind_ok (run_get w)]
  split
  · show w.Develops o { w with catalog := w.catalog.startRefresh true }
    rw [Catalog.startRefresh_eq]
    split
    · exact .of_same hw rfl (Nat.le_refl _)
    · exact ⟨hw, .refl _, .refl _, fun _ => rfl, Nat.le_refl _, rfl⟩
  · exact .of_same hw rfl (Nat.le_refl _)

theorem develops_cachedStatement (text : String) : Develops o (cachedStatement text : Op σ _) :=
  fun _ hw _ => .of_same hw rfl (Nat.le_refl _)

theorem develops_invalidateMetadata : Develops o (invalidateMetadata : Op σ Bool) := by
  intro w hw _
  rw [run_invalidateMetadata]
  split
  · exact .of_dropped hw
  · exact .of_same hw rfl (Nat.le_refl _)

variable [Store σ]

theorem tableLoad_run (id : TableId) (w : World σ) :
    (do tableEntry id (← ask (Store.describeTable id) (.describeTable id)) : Op σ TableEntry).run w =
      (tableEntry id (Store.describeTable id w.store).1).run
        (w.answered (Store.describeTable id w.store).2
          (.describeTable id (Store.describeTable id w.store).1)) := rfl

theorem typeLoad_run (name : TypeName) (w : World σ) :
    (do knownType name (← ask (Store.describeType name) (.describeType name)) : Op σ UserType).run w =
      (knownType name (Store.describeType name w.store).1).run
        (w.answered (Store.describeType name w.store).2
          (.describeType name (Store.describeType name w.store).1)) := rfl

/-- Executing a request may lead into any state; the caches stay or are dropped. -/
theorem dispatch_develops (request : Request) (options : Options)
    (after : o.store ((dispatch request options).run w).2.store) :
    w.Develops o ((dispatch request options).run w).2 := by
  rw [run_dispatch] at after ⊢
  generalize Store.execute request options w.store = answer at after
  obtain ⟨fault | page, s⟩ := answer
  · dsimp only at after ⊢
    by_cases drops : (fault.isSchemaFault && w.catalog.limiter.admits w.clock) = true
    · rw [if_pos drops] at after ⊢
      exact ⟨after, .of_subset (List.nil_subset _) rfl, .of_subset (List.nil_subset _) rfl, id,
        Nat.le_refl _, rfl⟩
    · rw [if_neg drops] at after ⊢
      exact .of_same after rfl (Nat.le_refl _)
  · exact .of_same after rfl (Nat.le_refl _)

variable (ho : o.Holds)

include ho

/-- An entry that is loaded is as it may be, and one that is found comes from its place. -/
theorem develops_entry (id : TableId) : Develops o
    (getOrLoad .tables id do tableEntry id (← ask (Store.describeTable id) (.describeTable id))) := by
  intro w hw sound
  have got := got Shelf.tables id (do
    tableEntry id (← ask (Store.describeTable id) (.describeTable id))) w
  generalize (getOrLoad Shelf.tables id _).run w = r at got
  cases got with
  | found => exact .of_tables hw rfl rfl .acquire
  | failed none ran =>
    rw [tableLoad_run] at ran
    obtain ⟨outcome, same, -⟩ := tableEntry_run id (Store.describeTable id w.store).1 _
    obtain ⟨-, rfl⟩ := Prod.mk.inj (same.symm.trans ran)
    exact .of_tables (ho.describeTable id hw) rfl rfl .acquire
  | @loaded entry _ none ran =>
    rw [tableLoad_run] at ran
    obtain ⟨outcome, same, told⟩ := tableEntry_run id (Store.describeTable id w.store).1 _
    obtain ⟨rfl, rfl⟩ := Prod.mk.inj (same.symm.trans ran)
    have fits := ho.entries hw (told entry rfl).1
    exact .of_tables (ho.describeTable id hw) rfl rfl (.load sound.tables none (fits _ _))

theorem develops_getColumns (id : TableId) : Develops o (getColumns id : Op σ TableEntry) :=
  (develops_entry ho id).bind develops_serve

theorem develops_getType (name : TypeName) : Develops o (getType name : Op σ UserType) := by
  intro w hw sound
  have got := got Shelf.types name (do
    knownType name (← ask (Store.describeType name) (.describeType name))) w
  rw [getType]
  generalize (getOrLoad Shelf.types name _).run w = r at got
  cases got with
  | found => exact .of_types hw rfl rfl .acquire
  | failed none ran =>
    rw [typeLoad_run] at ran
    obtain ⟨outcome, same, -⟩ := knownType_run name (Store.describeType name w.store).1 _
    obtain ⟨-, rfl⟩ := Prod.mk.inj (same.symm.trans ran)
    exact .of_types (ho.describeType name hw) rfl rfl .acquire
  | @loaded type _ none ran =>
    rw [typeLoad_run] at ran
    obtain ⟨outcome, same, told⟩ := knownType_run name (Store.describeType name w.store).1 _
    obtain ⟨rfl, rfl⟩ := Prod.mk.inj (same.symm.trans ran)
    exact .of_types (ho.describeType name hw) rfl rfl (.load sound.types none (ho.types hw (told type rfl)))

theorem develops_prepare (text : String) : Develops o (prepare text : Op σ Prepared) := by
  intro w hw _
  have got := got Shelf.statements text (do
    orFault (← ask (Store.prepare text) (.prepare text))) w
  have load (u : World σ) : ((do orFault (← ask (Store.prepare text) (.prepare text)) :
      Op σ Prepared).run u).2 = u.answered (Store.prepare text u.store).2
        (.prepare text (Store.prepare text u.store).1) := by
    rw [run_bind_ok (run_ask _ _ u)]
    cases (Store.prepare text u.store).1 <;> rfl
  rw [prepare]
  generalize (getOrLoad Shelf.statements text _).run w = r at got
  cases got with
  | found => exact .of_same hw rfl (Nat.le_refl _)
  | failed _ ran | loaded _ ran =>
    obtain rfl := (load _).symm.trans (congrArg Prod.snd ran)
    exact .of_same (ho.prepare text hw) rfl (Nat.le_refl _)

end Op

section Types

variable {o : Outlook σ} {w v : World σ} {name : TypeName}

/-- The store is in one of these states, and the types that are cached are as they may be. -/
structure World.Fits (o : Outlook σ) (w : World σ) : Prop where
  store : o.store w.store
  sound : w.Sound
  types : ∀ p ∈ w.catalog.types.places, ∀ type, p.value = some type → o.type p.key type

variable [Store σ] (ho : o.Holds)

include ho

theorem World.Fits.getType (fits : w.Fits o) (name : TypeName) :
    ((Op.getType name).run w).2.Fits o := by
  have developed := Op.develops_getType ho name w fits.store fits.sound
  exact ⟨developed.store, developed.sound fits.sound, developed.types.values fits.types⟩

/-- A type that is asked for is as it may be. -/
theorem Op.getType_ok (fits : w.Fits o) {type : UserType} (ran : (getType name).run w = (.ok type, v)) :
    o.type name type := by
  obtain ⟨p, hp, rfl, value⟩ | ⟨_, loaded⟩ := getOrLoad_ok ran
  · exact fits.types p hp type value
  · rw [typeLoad_run] at loaded
    obtain ⟨outcome, same, answer⟩ := knownType_run name (Store.describeType name w.store).1 _
    obtain ⟨rfl, -⟩ := Prod.mk.inj (same.symm.trans loaded)
    exact ho.types fits.store (answer type rfl)

end Types
end WideColumn
