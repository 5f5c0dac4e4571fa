import Mathlib.Data.List.Induction
import WideColumn.Engine.Concurrent
import WideColumn.Proofs.Engine.Develops

/-!
The course of an engine: operations one after the other, loads that go on between them, and a refresh
that goes from question to question.
-/
namespace WideColumn

variable {σ κ ν : Type}

/-- A load that has asked the store. -/
structure Inquiry (σ κ ν : Type) where
  key : κ
  slot : Nat
  /-- What is left to do once the store has answered. -/
  rest : Op σ ν

namespace Lane

variable [DecidableEq κ] [Hashed κ]

/-- A key is looked up; without a value its load begins. -/
def ask (l : Lane σ κ ν) (k : κ) (w : World σ) : List (Inquiry σ κ ν) × World σ :=
  let (place, cache) := (l.shelf.get w).acquire k
  match place.value with
  | some _ => ([], l.shelf.set cache w)
  | none =>
    match (l.load k).run (l.shelf.set cache w) with
    | (.ok rest, w) => ([⟨k, place.slot, rest⟩], w)
    | (.error _, w) => ([], w)

omit [DecidableEq κ] [Hashed κ] in
/-- A load ends. Its place is filled, if it is still there and nobody else has filled it. -/
def answer (l : Lane σ κ ν) (i : Inquiry σ κ ν) (w : World σ) : World σ :=
  match i.rest.run w with
  | (.ok v, w) =>
    if (l.shelf.get w).places.all fun p => p.slot ≠ i.slot || p.value.isNone then
      l.shelf.set ((l.shelf.get w).settle i.slot v) w
    else w
  | (.error _, w) => w

end Lane

/-- An engine between two steps. -/
structure Engine (σ : Type) where
  world : World σ
  tables : List (Inquiry σ TableId TableEntry) := []
  types : List (Inquiry σ TypeName UserType) := []
  visit : Option Visit := none

namespace Engine

/-- What an engine does is made of these, and what happens to it meanwhile. -/
inductive Move (σ : Type)
  | columns (id : TableId)
  | type (name : TypeName)
  | prepare (text : String)
  | cached (text : String)
  | execute (request : Request) (options : Options)
  /-- An entry that has been waited for is given out. -/
  | serve (entry : TableEntry)
  /-- Loads that others wait for, and their ends. -/
  | askTable (id : TableId)
  | answerTable (n : Nat)
  | askType (name : TypeName)
  | answerType (n : Nat)
  /-- The refresh goes on to its next question or ends. -/
  | advance
  /-- The refresh is dropped where it stands. -/
  | cut
  | invalidate
  | wait (ms : Nat)
  | change (store : σ)
  | evict (tables : TableId → Bool) (types : TypeName → Bool)

def new (config : Config) (store : σ) : Engine σ := { world := .new config store }

abbrev catalog (e : Engine σ) : Catalog := e.world.catalog

variable [Store σ]

def step (e : Engine σ) : Move σ → Engine σ
  | .columns id => { e with world := ((Op.getColumns id).run e.world).2 }
  | .type name => { e with world := ((Op.getType name).run e.world).2 }
  | .prepare text => { e with world := ((Op.prepare text).run e.world).2 }
  | .cached text => { e with world := ((Op.cachedStatement text).run e.world).2 }
  | .execute request options => { e with world := ((Op.dispatch request options).run e.world).2 }
  | .serve entry => { e with world := ((Op.serve entry).run e.world).2 }
  | .askTable id =>
    let (new, world) := Lane.tables.ask id e.world
    { e with world, tables := e.tables ++ new }
  | .answerTable n =>
    match e.tables[n]? with
    | some i => { e with world := Lane.tables.answer i e.world, tables := e.tables.eraseIdx n }
    | none => e
  | .askType name =>
    let (new, world) := Lane.types.ask name e.world
    { e with world, types := e.types ++ new }
  | .answerType n =>
    match e.types[n]? with
    | some i => { e with world := Lane.types.answer i e.world, types := e.types.eraseIdx n }
    | none => e
  | .advance =>
    let (outcome, world) := (Op.advanceRefresh e.visit).run e.world
    { e with world, visit := outcome.toOption.join }
  | .cut => { e with world := (Op.endRefresh.run e.world).2, visit := none }
  | .invalidate => { e with world := (Op.invalidateMetadata.run e.world).2 }
  | .wait ms => { e with world := { e.world with clock := e.world.clock + ms } }
  | .change store => { e with world := { e.world with store } }
  | .evict tables types =>
    { e with world := { e.world with catalog := { e.catalog with
        tables := e.catalog.tables.keep tables
        types := e.catalog.types.keep types } } }

def run (e : Engine σ) (moves : List (Move σ)) : Engine σ := moves.foldl step e

end Engine

section Inquiries

variable {P : κ → Nat → ν → Prop} {c d : Cache κ ν} {i : Inquiry σ κ ν}

/-- The load is for a place of its key, and its value will be as it may be. -/
structure Inquiry.Fits (P : κ → Nat → ν → Prop) (c : Cache κ ν) (i : Inquiry σ κ ν) : Prop where
  slot : i.slot < c.nextSlot
  key : ∀ p ∈ c.places, p.slot = i.slot → p.key = i.key
  rest : ∀ w, ∃ outcome, i.rest.run w = (outcome, w) ∧ ∀ v, outcome = .ok v → P i.key i.slot v

theorem Inquiry.Fits.evolves (fits : i.Fits P c) (h : c.Evolves P d) : i.Fits P d := by
  refine ⟨Nat.lt_of_lt_of_le fits.slot h.slots, fun p hp same => ?_, fits.rest⟩
  cases h.places p hp with
  | kept there => exact fits.key p there same
  | @filled q _ there => exact fits.key q there same
  | new late => exact absurd fits.slot (Nat.not_lt.mpr (same ▸ late))

/-- The end of a load fills an empty place of its key, or does nothing. -/
theorem Lane.answer_cases (l : Lane σ κ ν) (w : World σ) (fits : i.Fits P (l.shelf.get w)) :
    l.answer i w = w ∨ ∃ v, l.answer i w = l.shelf.set ((l.shelf.get w).settle i.slot v) w ∧
      (l.shelf.get w).Evolves P ((l.shelf.get w).settle i.slot v) := by
  obtain ⟨outcome, ran, told⟩ := fits.rest w
  rw [Lane.answer, ran]
  cases outcome with
  | error e => exact .inl rfl
  | ok v =>
    dsimp only
    split
    · rename_i free
      refine .inr ⟨v, rfl, .settle fun p hp same => ?_⟩
      have empty := List.all_eq_true.mp free p hp
      refine ⟨by simpa [same] using empty, ?_⟩
      rw [fits.key p hp same]
      exact told v rfl
    · exact .inl rfl

variable [DecidableEq κ] [Hashed κ]

theorem Lane.ask_found {l : Lane σ κ ν} {k : κ} {w : World σ} {v : ν}
    (hv : ((l.shelf.get w).acquire k).1.value = some v) :
    l.ask k w = ([], l.shelf.set ((l.shelf.get w).acquire k).2 w) := by
  simp only [Lane.ask, hv]

theorem Lane.ask_empty {l : Lane σ κ ν} {k : κ} {w u : World σ} {rest : Op σ ν}
    (hv : ((l.shelf.get w).acquire k).1.value = none)
    (ran : (l.load k).run (l.shelf.set ((l.shelf.get w).acquire k).2 w) = (.ok rest, u)) :
    l.ask k w = ([⟨k, ((l.shelf.get w).acquire k).1.slot, rest⟩], u) := by
  simp only [Lane.ask, hv, ran]

/-- A load that begins is for the place that has been acquired for its key. -/
theorem Inquiry.fits_acquired {k : κ} {rest : Op σ ν} (sound : c.Sound)
    (hr : ∀ w, ∃ outcome, rest.run w = (outcome, w) ∧
      ∀ v, outcome = .ok v → P k (c.acquire k).1.slot v) :
    Inquiry.Fits P (c.acquire k).2 ⟨k, (c.acquire k).1.slot, rest⟩ := by
  exact ⟨Cache.acquired_slot sound.slots k, (sound.acquire k).2.2, hr⟩

end Inquiries

namespace Engine

variable {o : Outlook σ} {e : Engine σ} {w : World σ}

/-- All that the engine has cached, or will put into its caches, is as it may be. -/
structure Keeps (o : Outlook σ) (e : Engine σ) : Prop where
  store : o.store e.world.store
  sound : e.world.Sound
  entries : ∀ p ∈ e.catalog.tables.places, ∀ v, p.value = some v → o.entry p.key p.slot v
  known : ∀ p ∈ e.catalog.types.places, ∀ v, p.value = some v → o.type p.key v
  tableLoads : ∀ i ∈ e.tables, i.Fits o.entry e.catalog.tables
  typeLoads : ∀ i ∈ e.types, i.Fits (fun name _ type => o.type name type) e.catalog.types
  visit : ∀ v, e.visit = some v → e.catalog.refreshing = true ∧
    ∀ table, v.answer = .ok (some table) → ∀ slot now, o.entry v.table slot ⟨table, now⟩

/-- The refresh has no question open. -/
theorem Keeps.unvisited (keeps : e.Keeps o) {catalog : Catalog} (tables : catalog.tables = e.catalog.tables)
    (types : catalog.types = e.catalog.types) :
    Keeps o { e with world := { e.world with catalog }, visit := none } where
  store := keeps.store
  sound := ⟨tables ▸ keeps.sound.tables, types ▸ keeps.sound.types⟩
  entries := tables ▸ keeps.entries
  known := types ▸ keeps.known
  tableLoads := tables ▸ keeps.tableLoads
  typeLoads := types ▸ keeps.typeLoads
  visit := nofun

/-- What a step can do that is not one of the refresh. -/
structure Steps (o : Outlook σ) (e e' : Engine σ) : Prop where
  world : e.world.Develops o e'.world
  tableLoads : ∀ i ∈ e'.tables, i ∈ e.tables ∨ i.Fits o.entry e'.catalog.tables
  typeLoads : ∀ i ∈ e'.types, i ∈ e.types ∨
    i.Fits (fun name _ type => o.type name type) e'.catalog.types
  visit : e'.visit = e.visit

theorem Steps.of_develops (h : e.world.Develops o w) : e.Steps o { e with world := w } :=
  ⟨h, fun _ => .inl, fun _ => .inl, rfl⟩

theorem Keeps.steps {e' : Engine σ} (keeps : e.Keeps o) (steps : e.Steps o e') : e'.Keeps o where
  store := steps.world.store
  sound := steps.world.sound keeps.sound
  entries := steps.world.tables.values keeps.entries
  known := steps.world.types.values keeps.known
  tableLoads i hi :=
    (steps.tableLoads i hi).elim (fun h => (keeps.tableLoads i h).evolves steps.world.tables) fun h => h
  typeLoads i hi :=
    (steps.typeLoads i hi).elim (fun h => (keeps.typeLoads i h).evolves steps.world.types) fun h => h
  visit v hv := by
    obtain ⟨flag, fits⟩ := keeps.visit v (steps.visit ▸ hv)
    exact ⟨steps.world.flag flag, fits⟩

/-- What has come about from the world of the engine is kept with what it has under way. -/
theorem Keeps.develops (keeps : e.Keeps o) (h : e.world.Develops o w) : Keeps o { e with world := w } :=
  keeps.steps (.of_develops h)

variable [Store σ]

theorem steps_askTable (ho : o.Holds) (keeps : e.Keeps o) (id : TableId) :
    e.Steps o (e.step (.askTable id)) := by
  rw [step]
  cases hv : ((Lane.tables.shelf.get e.world).acquire id).1.value with
  | some v =>
    rw [Lane.ask_found hv]
    dsimp only
    rw [List.append_nil]
    exact .of_develops (.of_tables keeps.store rfl rfl .acquire)
  | none =>
    rw [Lane.ask_empty hv rfl]
    refine
      ⟨.of_tables (ho.describeTable id keeps.store) rfl rfl .acquire, fun i hi => ?_, fun _ => .inl, rfl⟩
    refine (List.mem_append.mp hi).imp_right fun new => ?_
    obtain rfl := List.mem_singleton.mp new
    refine Inquiry.fits_acquired keeps.sound.tables fun w => ?_
    obtain ⟨outcome, ran, told⟩ := Op.tableEntry_run id (Store.describeTable id e.world.store).1 w
    exact ⟨outcome, ran, fun v hv => ho.entries keeps.store (told v hv).1 _ v.loadedAt⟩

theorem steps_askType (ho : o.Holds) (keeps : e.Keeps o) (name : TypeName) :
    e.Steps o (e.step (.askType name)) := by
  rw [step]
  cases hv : ((Lane.types.shelf.get e.world).acquire name).1.value with
  | some v =>
    rw [Lane.ask_found hv]
    dsimp only
    rw [List.append_nil]
    exact .of_develops (.of_types keeps.store rfl rfl .acquire)
  | none =>
    rw [Lane.ask_empty hv rfl]
    refine
      ⟨.of_types (ho.describeType name keeps.store) rfl rfl .acquire, fun _ => .inl, fun i hi => ?_, rfl⟩
    refine (List.mem_append.mp hi).imp_right fun new => ?_
    obtain rfl := List.mem_singleton.mp new
    refine Inquiry.fits_acquired keeps.sound.types fun w => ?_
    obtain ⟨outcome, ran, told⟩ := Op.knownType_run name (Store.describeType name e.world.store).1 w
    exact ⟨outcome, ran, fun v hv => ho.types keeps.store (told v hv)⟩

theorem steps (ho : o.Holds) (keeps : e.Keeps o) (m : Move σ) (others : m ≠ .advance ∧ m ≠ .cut)
    (after : o.store (e.step m).world.store) : e.Steps o (e.step m) := by
  have same : e.world.Develops o e.world := .of_same keeps.store rfl (Nat.le_refl _)
  have ran {α : Type} {x : Op σ α} (hx : Op.Develops o x) :
      e.Steps o { e with world := (x.run e.world).2 } := .of_develops (hx e.world keeps.store keeps.sound)
  cases m with
  | columns id => exact ran (Op.develops_getColumns ho id)
  | type name => exact ran (Op.develops_getType ho name)
  | prepare text => exact ran (Op.develops_prepare ho text)
  | cached text => exact ran (Op.develops_cachedStatement text)
  | execute request options => exact .of_develops (Op.dispatch_develops request options after)
  | serve entry => exact ran (Op.develops_serve entry)
  | invalidate => exact ran Op.develops_invalidateMetadata
  | askTable id => exact steps_askTable ho keeps id
  | askType name => exact steps_askType ho keeps name
  | answerTable n =>
    rw [step]
    split
    · rename_i i hi
      have fewer : ∀ j ∈ e.tables.eraseIdx n, j ∈ e.tables := fun _ => List.mem_of_mem_eraseIdx
      refine ⟨?_, fun j hj => .inl (fewer j hj), fun _ => .inl, rfl⟩
      have fits := keeps.tableLoads i (List.mem_of_getElem? hi)
      obtain nothing | ⟨v, filled, evolves⟩ := Lane.tables.answer_cases e.world fits
      · rwa [nothing]
      · rw [filled]
        exact .of_tables keeps.store rfl rfl evolves
    · exact .of_develops same
  | answerType n =>
    rw [step]
    split
    · rename_i i hi
      have fewer : ∀ j ∈ e.types.eraseIdx n, j ∈ e.types := fun _ => List.mem_of_mem_eraseIdx
      refine ⟨?_, fun _ => .inl, fun j hj => .inl (fewer j hj), rfl⟩
      have fits := keeps.typeLoads i (List.mem_of_getElem? hi)
      obtain nothing | ⟨v, filled, evolves⟩ := Lane.types.answer_cases e.world fits
      · rwa [nothing]
      · rw [filled]
        exact .of_types keeps.store rfl rfl evolves
    · exact .of_develops same
  | advance => exact absurd rfl others.1
  | cut => exact absurd rfl others.2
  | wait ms => exact .of_develops (.of_same keeps.store rfl (Nat.le_add_right _ _))
  | change s => exact .of_develops (.of_same after rfl (Nat.le_refl _))
  | evict tables types =>
    exact .of_develops ⟨keeps.store, .of_subset List.filter_sublist.subset rfl,
      .of_subset List.filter_sublist.subset rfl, id, Nat.le_refl _, rfl⟩

section Refresh

/-- The refresh puts its next question, or ends. -/
def visitNext (e : Engine σ) : List TableId → Engine σ
  | [] =>
    { e with world := { e.world with catalog := e.catalog.release }, visit := none }
  | id :: later =>
    let (answer, store) := Store.describeTable id e.world.store
    { e with
      world := e.world.answered store (.describeTable id answer)
      visit := some ⟨id, answer, later⟩ }

theorem visitNext_eq (e : Engine σ) (ids : List TableId) :
    { e with
      world := ((Op.visitNext ids).run e.world).2
      visit := ((Op.visitNext ids).run e.world).1.toOption.join } = e.visitNext ids := by
  rw [Op.visitNext_run]
  cases ids <;> rfl

omit [Store σ] in
/-- The answer to a question has been used. -/
def keepAnswer (e : Engine σ) (v : Visit) : Engine σ :=
  { e with world := { e.world with catalog := e.catalog.refreshed v.table e.world.clock v.answer } }

theorem step_advance (e : Engine σ) : e.step .advance =
    match e.visit with
    | some v => (e.keepAnswer v).visitNext v.later
    | none => if e.catalog.refreshing then e.visitNext (e.catalog.stale e.world.clock) else e := by
  cases hv : e.visit with
  | some v =>
    rw [step, hv]
    exact (e.keepAnswer v).visitNext_eq v.later
  | none =>
    dsimp only
    rw [step, hv, Op.advanceRefresh, Op.run_bind_ok (Op.run_get e.world)]
    cases e.catalog.refreshing with
    | true => exact e.visitNext_eq _
    | false => exact congrArg (fun visit => { e with visit }) hv.symm

omit [Store σ] in
theorem Keeps.keepAnswer (keeps : e.Keeps o) {v : Visit} (hv : e.visit = some v) :
    (e.keepAnswer v).Keeps o ∧ e.catalog.tables.Evolves o.entry (e.keepAnswer v).catalog.tables := by
  obtain ⟨-, fits⟩ := keeps.visit v hv
  have developed : e.world.Develops o (e.keepAnswer v).world := by
    rw [Engine.keepAnswer]
    rcases answer : v.answer with fault | _ | table
    · exact .of_same keeps.store rfl (Nat.le_refl _)
    · exact .of_tables keeps.store rfl rfl (.of_subset List.filter_sublist.subset rfl)
    · exact .of_tables keeps.store rfl rfl (.insert (fits table answer _ _))
  exact ⟨keeps.develops developed, developed.tables⟩

theorem Keeps.visitNext (ho : o.Holds) (keeps : e.Keeps o) (flag : e.catalog.refreshing = true)
    (ids : List TableId) : (e.visitNext ids).Keeps o := by
  cases ids with
  | nil => exact keeps.unvisited rfl rfl
  | cons id later =>
    have asked := keeps.develops (w := (e.visitNext (id :: later)).world)
      (.of_same (ho.describeTable id keeps.store) rfl (Nat.le_refl _))
    refine { asked with visit := fun v hv => ⟨flag, ?_⟩ }
    obtain rfl := Option.some.inj hv
    exact fun table told slot now => ho.entries keeps.store told slot now

theorem visitNext_tables (e : Engine σ) (ids : List TableId) :
    (e.visitNext ids).catalog.tables = e.catalog.tables := by
  cases ids <;> rfl

/-- Every step keeps all that is cached as it may be. -/
theorem Keeps.step (ho : o.Holds) (keeps : e.Keeps o) (m : Move σ)
    (after : o.store (e.step m).world.store) :
    (e.step m).Keeps o ∧ e.catalog.tables.Evolves o.entry (e.step m).catalog.tables := by
  by_cases others : m ≠ .advance ∧ m ≠ .cut
  · have made := e.steps ho keeps m others after
    exact ⟨keeps.steps made, made.world.tables⟩
  · obtain rfl | rfl : m = .advance ∨ m = .cut := by
      by_contra none
      exact others (not_or.mp none)
    · rw [step_advance]
      split
      · rename_i v hv
        obtain ⟨kept, evolves⟩ := keeps.keepAnswer hv
        refine ⟨kept.visitNext ho (kept.visit v hv).1 _, ?_⟩
        rw [visitNext_tables]
        exact evolves
      · split
        · rename_i flag
          exact ⟨keeps.visitNext ho flag _, visitNext_tables e _ ▸ .refl _⟩
        · exact ⟨keeps, .refl _⟩
    · exact ⟨keeps.unvisited rfl rfl, .refl _⟩

end Refresh

section Runs

@[simp] theorem run_concat (e : Engine σ) (moves : List (Move σ)) (m : Move σ) :
    e.run (moves ++ [m]) = (e.run moves).step m := List.foldl_concat ..

@[simp] theorem run_append (e : Engine σ) (moves more : List (Move σ)) :
    e.run (moves ++ more) = (e.run moves).run more := List.foldl_append

/-- What holds at the start and is kept by each move of a run holds at its end. -/
theorem run_induction {I : Engine σ → Prop} {moves : List (Move σ)} (start : I e)
    (next : ∀ before m, before ++ [m] <+: moves → I (e.run before) → I (e.run (before ++ [m]))) :
    I (e.run moves) := by
  induction moves using List.reverseRecOn with
  | nil => exact start
  | append_singleton moves m ih =>
    refine next moves m List.prefix_rfl (ih fun before m' h => next before m' ?_)
    exact h.trans (List.prefix_append moves [m])

theorem Keeps.run (ho : o.Holds) (keeps : e.Keeps o) {moves : List (Move σ)}
    (after : ∀ taken, taken <+: moves → o.store (e.run taken).world.store) : (e.run moves).Keeps o :=
  run_induction keeps fun before m h kept => by
    rw [run_concat]
    exact (kept.step ho m (run_concat e before m ▸ after _ h)).1

end Runs

end Engine
end WideColumn
