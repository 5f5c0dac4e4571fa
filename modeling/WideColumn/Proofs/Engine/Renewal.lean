import WideColumn.Proofs.Cache.Displaced
import WideColumn.Proofs.Engine.Tidy

/-!
What a refresh makes of the tables that are cached, if it is left alone: it asks once about each table
that was expired when it began, uses each answer as it comes, and touches no other table.
-/
namespace WideColumn

variable {σ : Type}

/-- What the store has answered about a table, and when. -/
structure Report where
  table : TableId
  answer : Except Fault (Option Table)
  time : Nat
  deriving DecidableEq

namespace Report

def event (r : Report) : Event := .describeTable r.table r.answer

/-- What the tables come to for this answer: a description is kept with its time, a table that does not
exist loses its place, and for a fault the place stays as it was. -/
def Renews (before after : Cache TableId TableEntry) (r : Report) : Prop :=
  match r.answer with
  | .ok (some table) => (after.get r.table).1 = some ⟨table, r.time⟩
  | .ok none => after.find? r.table = none
  | .error _ => after.find? r.table = before.find? r.table

/-- It is only the places of the table that matter. -/
theorem Renews.congr {before after before' after' : Cache TableId TableEntry} {r : Report}
    (h : r.Renews before after) (hb : before'.find? r.table = before.find? r.table)
    (ha : after'.find? r.table = after.find? r.table) : r.Renews before' after' := by
  rw [Renews] at h ⊢
  rw [ha, hb]
  split at h
  · rwa [Cache.get_value, ha, ← Cache.get_value]
  · exact h
  · exact h

end Report

namespace Catalog

variable {c : Catalog} {n now : Nat} {id j : TableId} {answer : Except Fault (Option Table)}

/-- An answer about a table that has a place concerns that place only. -/
theorem find?_refreshed (tidy : c.tables.Tidy n) (there : (c.tables.find? id).isSome)
    (ne : j ≠ id) : (c.refreshed id now answer).tables.find? j = c.tables.find? j := by
  obtain ⟨p, hp⟩ := Option.isSome_iff_exists.mp there
  rcases answer with fault | _ | table
  · rfl
  · exact (Cache.find?_remove ..).trans (if_neg ne)
  · refine (tidy.find?_insert id _ j).trans ?_
    rw [if_neg ne, Cache.displaced?_of_find? hp]
    simp

theorem renews_refreshed (tidy : c.tables.Tidy n) :
    (Report.mk id answer now).Renews c.tables (c.refreshed id now answer).tables := by
  rcases answer with fault | _ | table
  · rfl
  · exact (Cache.find?_remove ..).trans (if_pos rfl)
  · show ((c.tables.insert id _).get id).1 = _
    rw [Cache.get_value, tidy.find?_insert, if_pos rfl]
    rfl

/-- A refresh asks about the tables that have expired, each once. -/
theorem stale_spec (tidy : c.tables.Tidy n) (now : Nat) :
    (c.stale now).Nodup ∧ ∀ id, id ∈ c.stale now ↔
      ∃ entry, (c.tables.get id).1 = some entry ∧ entry.isExpired now c.expiry = true := by
  obtain ⟨apart, listed⟩ := tidy.loaded_spec
  refine ⟨apart.sublist (List.filter_sublist.map _), fun id => ?_⟩
  simp only [stale, List.mem_map, List.mem_filter, Prod.exists, listed]
  grind

end Catalog

/-- What the store answers when it is asked about these tables in turn, each answer taking so long. -/
def reports [Store σ] : σ → Nat → List (TableId × Nat) → List Report
  | _, _, [] => []
  | s, now, (id, ms) :: later =>
    let (answer, s) := Store.describeTable id s
    ⟨id, answer, now + ms⟩ :: reports s (now + ms) later

theorem reports_table [Store σ] (s : σ) (now : Nat) (visits : List (TableId × Nat)) :
    (reports s now visits).map Report.table = visits.map Prod.fst := by
  induction visits generalizing s now with
  | nil => rfl
  | cons visit later ih => exact congrArg (visit.1 :: ·) (ih _ _)

namespace World

/-- The store has been asked about a table, and its answer has been used when it was there. -/
def renewed [Store σ] (w : World σ) (id : TableId) (ms : Nat) : World σ :=
  let (answer, store) := Store.describeTable id w.store
  let asked := w.answered store (.describeTable id answer)
  { asked with clock := w.clock + ms, catalog := w.catalog.refreshed id (w.clock + ms) answer }

def renewedAll [Store σ] (w : World σ) (visits : List (TableId × Nat)) : World σ :=
  visits.foldl (fun w v => w.renewed v.1 v.2) w

def refreshEnded (w : World σ) : World σ :=
  { w with catalog := w.catalog.release }

variable [Store σ] {w : World σ}

theorem renewedAll_cons (w : World σ) (id : TableId) (ms : Nat) (later : List (TableId × Nat)) :
    w.renewedAll ((id, ms) :: later) = (w.renewed id ms).renewedAll later := rfl

/-- Each question is asked once, in order. -/
theorem events_renewedAll (w : World σ) (visits : List (TableId × Nat)) :
    (w.renewedAll visits).events =
      w.events ++ (reports w.store w.clock visits).map Report.event := by
  induction visits generalizing w with
  | nil => exact (List.append_nil _).symm
  | cons visit later ih =>
    obtain ⟨id, ms⟩ := visit
    have asked : (w.renewed id ms).events =
        w.events ++ [.describeTable id (Store.describeTable id w.store).1] :=
      w.answered_events (Store.describeTable id w.store).2 _
    rw [renewedAll_cons, ih, asked, List.append_assoc]
    rfl

/-- Nothing else is cached anew or given up. -/
theorem others_renewedAll (w : World σ) (visits : List (TableId × Nat)) :
    (w.renewedAll visits).catalog.types = w.catalog.types ∧
      (w.renewedAll visits).statements = w.statements := by
  induction visits generalizing w with
  | nil => exact ⟨rfl, rfl⟩
  | cons visit later ih =>
    obtain ⟨types, statements⟩ := ih (w.renewed visit.1 visit.2)
    exact ⟨types.trans Catalog.refreshed_types, statements⟩

/-- As long as no table is visited twice, each visit has its effect whatever the others are. -/
theorem tables_renewedAll {n : Nat} {visits : List (TableId × Nat)} (tidy : w.catalog.tables.Tidy n)
    (once : (visits.map Prod.fst).Nodup)
    (there : ∀ id ∈ visits.map Prod.fst, (w.catalog.tables.find? id).isSome) :
    (∀ r ∈ reports w.store w.clock visits,
      r.Renews w.catalog.tables (w.renewedAll visits).catalog.tables) ∧
    ∀ id ∉ visits.map Prod.fst,
      (w.renewedAll visits).catalog.tables.find? id = w.catalog.tables.find? id := by
  induction visits generalizing w with
  | nil => exact ⟨List.forall_mem_nil _, fun _ _ => rfl⟩
  | cons visit later ih =>
    obtain ⟨id, ms⟩ := visit
    obtain ⟨new, once⟩ := List.nodup_cons.mp once
    obtain ⟨first, there⟩ := List.forall_mem_cons.mp there
    have kept {j : TableId} (ne : j ≠ id) :
        (w.renewed id ms).catalog.tables.find? j = w.catalog.tables.find? j :=
      Catalog.find?_refreshed tidy first ne
    have apart {j : TableId} (hj : j ∈ later.map Prod.fst) : j ≠ id := fun same => new (same ▸ hj)
    obtain ⟨renews, others⟩ := ih (w := w.renewed id ms) (Catalog.refreshed_tidy tidy) once fun j hj => by
      rw [kept (apart hj)]
      exact there j hj
    rw [renewedAll_cons]
    refine ⟨List.forall_mem_cons.mpr ⟨?_, fun r hr => ?_⟩, fun j hj => ?_⟩
    · -- the later visits leave this place as it is
      exact (Catalog.renews_refreshed tidy).congr rfl (others id new)
    · have named := reports_table (w.renewed id ms).store (w.renewed id ms).clock later
      have ne : r.table ≠ id := apart (named ▸ List.mem_map_of_mem hr)
      exact (renews r hr).congr (kept ne).symm rfl
    · obtain ⟨ne, hj⟩ := not_or.mp (mt List.mem_cons.mpr hj)
      exact (others j hj).trans (kept ne)

end World

namespace Engine

variable [Store σ] {e : Engine σ} {config : Config} {delays : List Nat}

/-- The answers to the questions of a refresh come after so long, one by one. -/
def answering (delays : List Nat) : List (Move σ) := delays.flatMap fun ms => [.wait ms, .advance]

/-- A refresh from its start on. -/
def refreshing (delays : List Nat) : List (Move σ) := .advance :: answering delays

theorem run_answering (e : Engine σ) {ids : List TableId} (each : ids.length = delays.length) :
    (e.visitNext ids).run (answering delays) =
      { e with world := (e.world.renewedAll (ids.zip delays)).refreshEnded, visit := none } := by
  induction ids generalizing e delays with
  | nil =>
    obtain rfl := List.eq_nil_of_length_eq_zero each.symm
    rfl
  | cons id later ih =>
    obtain ⟨ms, delays, rfl⟩ := List.exists_cons_of_length_eq_add_one each.symm
    have each := Nat.succ.inj each
    set asked := (e.visitNext (id :: later)).step (.wait ms) with hasked
    have answered : (e.visitNext (id :: later)).run (answering (ms :: delays)) =
        (asked.step .advance).run (answering delays) := rfl
    have visit : asked.visit = some ⟨id, (Store.describeTable id e.world.store).1, later⟩ := rfl
    rw [answered, step_advance, visit]
    exact ih _ each

theorem run_refreshing (unvisited : e.visit = none) (started : e.catalog.refreshing = true)
    (each : delays.length = (e.catalog.stale e.world.clock).length) : e.run (refreshing delays) =
      { e with
        world := (e.world.renewedAll ((e.catalog.stale e.world.clock).zip delays)).refreshEnded
        visit := none } := by
  have first : e.step .advance = e.visitNext (e.catalog.stale e.world.clock) := by
    rw [step_advance, unvisited]
    exact if_pos started
  show (e.step .advance).run (answering delays) = _
  rw [first]
  exact run_answering e each.symm

/-- A refresh that runs to its end with nothing else going on asks about each table that was expired at
its start, once, and about no other. What the store describes is kept with the time of the answer, what
it does not know is given up, and for a fault the old entry stays. All other tables are as they were;
none is added, and none has to give way. -/
theorem refresh_renews (tidy : e.world.Tidy config) (unvisited : e.visit = none)
    (started : e.catalog.refreshing = true)
    (each : delays.length = (e.catalog.stale e.world.clock).length) :
    let after := e.run (refreshing delays)
    let told := reports e.world.store e.world.clock ((e.catalog.stale e.world.clock).zip delays)
    (after.catalog.refreshing = false ∧ after.visit = none) ∧
      ((told.map Report.table).Nodup ∧ ∀ id, id ∈ told.map Report.table ↔
        ∃ entry, (e.catalog.tables.get id).1 = some entry ∧
          entry.isExpired e.world.clock e.catalog.expiry = true) ∧
      after.world.events = e.world.events ++ told.map Report.event ∧
      (∀ r ∈ told, r.Renews e.catalog.tables after.catalog.tables) ∧
      (∀ id ∉ told.map Report.table, after.catalog.tables.find? id = e.catalog.tables.find? id) ∧
      after.catalog.types = e.catalog.types ∧ after.world.statements = e.world.statements := by
  intro after told
  have ran : after = _ := run_refreshing unvisited started each
  obtain ⟨once, expired⟩ := Catalog.stale_spec tidy.tables e.world.clock
  have visits : ((e.catalog.stale e.world.clock).zip delays).map Prod.fst =
      e.catalog.stale e.world.clock := List.map_fst_zip each.ge
  have asked : told.map Report.table = e.catalog.stale e.world.clock :=
    (reports_table _ _ _).trans visits
  have there : ∀ id ∈ e.catalog.stale e.world.clock, (e.catalog.tables.find? id).isSome := by
    intro id hid
    obtain ⟨entry, found, -⟩ := (expired id).mp hid
    rw [Cache.get_value] at found
    exact Option.isSome_of_mem (Option.bind_eq_some_iff.mp found).choose_spec.1
  obtain ⟨renews, others⟩ := World.tables_renewedAll tidy.tables
    (visits.symm ▸ once) (visits.symm ▸ there)
  rw [asked, ran]
  refine ⟨⟨rfl, rfl⟩, ⟨once, expired⟩, ?_, renews, fun id hid => others id (visits.symm ▸ hid), ?_⟩
  · exact World.events_renewedAll e.world _
  · exact World.others_renewedAll e.world _

/-- A store that answers for each table by itself. -/
structure PerTable where
  answer : TableId → Except Fault (Option Table)

instance : Store PerTable where
  execute _ _ s := (.ok {}, s)
  prepare text s := (.ok ⟨"", text⟩, s)
  describeTable id s := (s.answer id, s)
  describeType _ s := (.ok none, s)
  pagesToCome _ := 0
  typeCount _ := 0

/-- Of three tables that are expired one has a new column, one is gone, and for one the store fails. The
fourth has been loaded since. -/
theorem renewed_dropped_and_kept :
    let id (name : String) : TableId := ⟨"shop", name⟩
    let table (name : String) (columns : List Column) : Table :=
      ⟨id name, ⟨"id", .int, .partitionKey⟩ :: columns⟩
    let state : Column := ⟨"state", .text, .regular⟩
    let earlier : PerTable := ⟨fun id => .ok (some ⟨id, [⟨"id", .int, .partitionKey⟩]⟩)⟩
    let now : PerTable := ⟨fun i =>
      if i = id "orders" then .ok (some (table "orders" [state]))
      else if i = id "carts" then .ok none
      else .error .timeout⟩
    let config : Config := { metadataExpiry := 10, tableCapacity := 4 }
    let e := (new config earlier).run [.columns (id "items"), .columns (id "carts"), .columns (id "orders"),
      .wait 11, .columns (id "stock"), .change now, .columns (id "orders")]
    let after := e.run (refreshing [3, 0, 2])
    e.world.Tidy config ∧ e.visit = none ∧ e.catalog.refreshing = true ∧
      [3, 0, 2].length = (e.catalog.stale e.world.clock).length ∧
      (after.catalog.tables.get (id "orders")).1 = some ⟨table "orders" [state], 14⟩ ∧
      after.catalog.tables.find? (id "carts") = none ∧
      (after.catalog.tables.get (id "items")).1 = some ⟨table "items" [], 0⟩ ∧
      (after.catalog.tables.get (id "stock")).1 = some ⟨table "stock" [], 11⟩ := by
  intro id table state earlier now config e after
  have tidy : e.world.Tidy config := (tidy_run config earlier _).world
  have each : [3, 0, 2].length = (e.catalog.stale e.world.clock).length := by decide +kernel
  have unvisited : e.visit = none := Option.isNone_iff_eq_none.mp (by decide +kernel)
  have started : e.catalog.refreshing = true := by decide +kernel
  obtain ⟨-, -, -, renews, others, -⟩ := refresh_renews tidy unvisited started each
  have told : reports e.world.store e.world.clock ((e.catalog.stale e.world.clock).zip [3, 0, 2]) =
      [⟨id "orders", .ok (some (table "orders" [state])), 14⟩, ⟨id "carts", .ok none, 14⟩,
        ⟨id "items", .error .timeout, 16⟩] := by decide +kernel
  have items : (e.catalog.tables.get (id "items")).1 = some ⟨table "items" [], 0⟩ := by decide +kernel
  have stock : (e.catalog.tables.get (id "stock")).1 = some ⟨table "stock" [], 11⟩ := by decide +kernel
  rw [told] at renews others
  clear_value e
  obtain ⟨described, unknown, failed, -⟩ := by simpa only [List.forall_mem_cons] using renews
  rw [Cache.get_value] at items stock
  refine ⟨tidy, unvisited, started, each, described, unknown, ?_, ?_⟩ <;> rw [Cache.get_value]
  · exact (congrArg (Option.bind · Place.value) failed).trans items
  · exact (congrArg (Option.bind · Place.value) (others (id "stock") (by decide +kernel))).trans stock

end Engine

end WideColumn
