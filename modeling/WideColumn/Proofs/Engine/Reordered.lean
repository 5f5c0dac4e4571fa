import WideColumn.Proofs.Cache.Order
import WideColumn.Proofs.Engine.Renewal

/-!
What a refresh does to the order in which tables give way. Each table that the store describes is put in
front of its shard when its answer is used, so that afterwards these stand there in the reverse of their old
order, and those that were left alone behind them.
-/
namespace WideColumn

namespace Report

variable {told : List Report} {r : Report} {order : List TableId} {j : TableId}

/-- What an answer about a cached table does to the order: the table comes to the front, or goes, or stays
where it is. -/
def reorder (order : List TableId) (r : Report) : List TableId :=
  match r.answer with
  | .ok (some _) => r.table :: order.filter (· ≠ r.table)
  | .ok none => order.filter (· ≠ r.table)
  | .error _ => order

/-- The tables that the store has described, in the order of the questions. -/
def described (told : List Report) : List TableId :=
  (told.filter (·.answer matches .ok (some _))).map Report.table

/-- The tables that do not exist any more. -/
def missing (told : List Report) : List TableId :=
  (told.filter (·.answer matches .ok none)).map Report.table

theorem described_sublist (told : List Report) : (described told).Sublist (told.map Report.table) :=
  List.filter_sublist.map _

theorem missing_sublist (told : List Report) : (missing told).Sublist (told.map Report.table) :=
  List.filter_sublist.map _

theorem mem_reorder (ne : j ≠ r.table) : j ∈ r.reorder order ↔ j ∈ order := by
  rw [reorder]
  split <;> simp [ne]

/-- All the answers together. No table comes to the front twice, or goes once it has come there. -/
theorem foldl_reorder (once : (told.map Report.table).Nodup) (order : List TableId) :
    told.foldl reorder order =
      broughtForward (described told) (order.filter (· ∉ missing told)) := by
  induction told generalizing order with
  | nil => simp [described, missing, broughtForward_nil]
  | cons r later ih =>
    obtain ⟨id, answer, time⟩ := r
    obtain ⟨new, once⟩ := List.nodup_cons.mp once
    have undescribed : id ∉ described later := fun h => new ((described_sublist later).subset h)
    have unmissed : id ∉ missing later := fun h => new ((missing_sublist later).subset h)
    rw [List.foldl_cons, ih once]
    rcases answer with fault | _ | table
    · rfl
    · show broughtForward (described later) ((order.filter (· ≠ id)).filter (· ∉ missing later)) =
        broughtForward (described later) (order.filter (· ∉ id :: missing later))
      simp [Bool.and_comm]
    · show broughtForward (described later)
          ((id :: order.filter (· ≠ id)).filter (· ∉ missing later)) =
        broughtForward (id :: described later) (order.filter (· ∉ missing later))
      rw [List.filter_cons_of_pos (by simpa using unmissed), List.filter_comm,
        broughtForward_cons undescribed]

end Report

/-- An answer concerns the order in one shard. -/
theorem Catalog.order_refreshed {c : Catalog} {n now : Nat} {id : TableId} (tidy : c.tables.Tidy n)
    (there : id ∈ c.tables.order (c.tables.shardOf id)) (answer : Except Fault (Option Table)) (s : Nat) :
    (c.refreshed id now answer).tables.order s = if c.tables.shardOf id = s
      then Report.reorder (c.tables.order s) ⟨id, answer, now⟩ else c.tables.order s := by
  rcases answer with fault | _ | table
  · exact (ite_self _).symm
  · have removed : (c.refreshed id now (.ok none)).tables.order s = (c.tables.order s).filter (· ≠ id) :=
      Cache.order_remove _ id s
    rw [removed]
    split
    · rfl
    · rename_i other
      refine List.filter_eq_self.mpr fun j hj => decide_eq_true fun same => other ?_
      exact same ▸ Cache.shardOf_of_mem_order hj
  · exact tidy.order_insert there _ s

namespace World

variable {σ : Type} [Store σ] {w : World σ} {n : Nat} {visits : List (TableId × Nat)}

theorem tidy_renewedAll (tidy : w.catalog.tables.Tidy n) :
    (w.renewedAll visits).catalog.tables.Tidy n := by
  induction visits generalizing w with
  | nil => exact tidy
  | cons visit later ih => exact ih (w := w.renewed visit.1 visit.2) (Catalog.refreshed_tidy tidy)

/-- Each visit to a cached table does to the order in its shard what its answer does. -/
theorem order_renewedAll (tidy : w.catalog.tables.Tidy n) (once : (visits.map Prod.fst).Nodup)
    (there : ∀ id ∈ visits.map Prod.fst, id ∈ w.catalog.tables.order (w.catalog.tables.shardOf id))
    (s : Nat) :
    (w.renewedAll visits).catalog.tables.order s = ((reports w.store w.clock visits).filter
      fun r => w.catalog.tables.shardOf r.table = s).foldl Report.reorder (w.catalog.tables.order s) := by
  induction visits generalizing w with
  | nil => rfl
  | cons visit later ih =>
    obtain ⟨id, ms⟩ := visit
    obtain ⟨new, once⟩ := List.nodup_cons.mp once
    obtain ⟨first, there⟩ := List.forall_mem_cons.mp there
    have tidy' : (w.renewed id ms).catalog.tables.Tidy n := Catalog.refreshed_tidy tidy
    have shards : (w.renewed id ms).catalog.tables.shardOf = w.catalog.tables.shardOf :=
      Cache.shardOf_eq (tidy'.shards.trans tidy.shards.symm)
    have visited (s : Nat) : (w.renewed id ms).catalog.tables.order s =
        if w.catalog.tables.shardOf id = s then Report.reorder (w.catalog.tables.order s)
          ⟨id, (Store.describeTable id w.store).1, w.clock + ms⟩ else w.catalog.tables.order s :=
      Catalog.order_refreshed tidy first _ s
    have rest := ih (w := w.renewed id ms) tidy' once fun j hj => by
      have ne : j ≠ id := fun same => new (same ▸ hj)
      rw [shards]
      refine (visited _).symm ▸ ?_
      split
      · exact (Report.mem_reorder ne).mpr (there j hj)
      · exact there j hj
    rw [shards] at rest
    refine rest.trans ?_
    have asked : reports w.store w.clock ((id, ms) :: later) =
        ⟨id, (Store.describeTable id w.store).1, w.clock + ms⟩ ::
          reports (w.renewed id ms).store (w.renewed id ms).clock later := rfl
    rw [asked, List.filter_cons]
    simp only [decide_eq_true_eq]
    split
    · rename_i own
      exact congrArg (List.foldl Report.reorder · _) ((visited s).trans (if_pos own))
    · rename_i other
      exact congrArg (List.foldl Report.reorder · _) ((visited s).trans (if_neg other))

end World

namespace Engine

open Report

variable {σ : Type} [Store σ] {e : Engine σ} {config : Config} {delays : List Nat}

/-- Each shard has an order of its own; a cache for fewer than 32 tables has one shard
(`Cache.shardCount_of_lt`). A refresh that runs to its end with nothing else going on puts the tables that
the store describes in front, in the reverse of their old order; the others that still exist stand behind
them as they stood. If none is dropped, the order stays as it was exactly if no table has been described, or
the most recently used one alone. The last one, which gives way next if the shard is full, is then the last
of those that were left alone, and if there are none, the one that was the first: it is the same as before
exactly if the last one has not been described, or is the only one. -/
theorem refresh_reorders (tidy : e.world.Tidy config) (unvisited : e.visit = none)
    (started : e.catalog.refreshing = true)
    (each : delays.length = (e.catalog.stale e.world.clock).length) (s : Nat) :
    let before := e.catalog.tables
    let after := (e.run (refreshing delays)).catalog.tables
    let told := (reports e.world.store e.world.clock ((e.catalog.stale e.world.clock).zip delays)).filter
      fun r => before.shardOf r.table = s
    after.order s = broughtForward (described told) ((before.order s).filter (· ∉ missing told)) ∧
      (described told).Sublist (before.order s) ∧
      (missing told = [] →
        (after.order s = before.order s ↔
          (described told).length ≤ 1 ∧ described told <+: before.order s) ∧
        ∀ last, (before.order s).getLast? = some last →
          (after.order s).getLast? = ((before.order s).filter (· ∉ described told)).getLast?.or
            (described told).head? ∧
          ((after.order s).getLast? = some last ↔ (last ∈ described told → before.order s = [last])) ∧
          ∀ id, before.displaced? id = some last → after.displaced? id = (after.order s).getLast?) := by
  intro before after told
  have ran : after = ((e.world.renewedAll
      ((e.catalog.stale e.world.clock).zip delays)).refreshEnded).catalog.tables :=
    congrArg (·.catalog.tables) (run_refreshing unvisited started each)
  have visits : ((e.catalog.stale e.world.clock).zip delays).map Prod.fst =
      e.catalog.stale e.world.clock := List.map_fst_zip each.ge
  have asked (i : Nat) : ((e.catalog.stale e.world.clock).filter (before.shardOf · = i)).Sublist
      (before.order i) := ((List.filter_sublist.map _).filter _).trans (before.loaded_sublist i)
  have distinct : (before.order s).Nodup := tidy.tables.shard_keys s
  have named : told.map Report.table = (e.catalog.stale e.world.clock).filter (before.shardOf · = s) := by
    rw [← visits, ← reports_table e.world.store e.world.clock, List.filter_map]
    rfl
  have folded : after.order s = told.foldl reorder (before.order s) := by
    have once := (Catalog.stale_spec tidy.tables e.world.clock).1
    refine ran ▸ World.order_renewedAll tidy.tables (visits.symm ▸ once) (fun id hid => ?_) s
    exact (asked _).subset (List.mem_filter.mpr ⟨visits ▸ hid, decide_eq_true rfl⟩)
  have order := folded.trans (foldl_reorder (named.symm ▸ distinct.sublist (asked s)) (before.order s))
  have among : (described told).Sublist (before.order s) :=
    (described_sublist told).trans (named ▸ asked s)
  refine ⟨order, among, fun kept => ?_⟩
  have whole : (before.order s).filter (· ∉ missing told) = before.order s := by simp [kept]
  rw [whole] at order
  have tidyAfter : after.Tidy config.tableCapacity := ran ▸ World.tidy_renewedAll tidy.tables
  have rearranged : (after.order s).Perm (before.order s) := order ▸ broughtForward_perm distinct among
  refine ⟨?_, fun last ends => ⟨?_, ?_, fun id gives => ?_⟩⟩
  · exact order ▸ broughtForward_eq_self_iff distinct among
  · exact order ▸ getLast?_broughtForward _ _
  · exact order ▸ getLast?_broughtForward_eq_iff distinct among ends
  · have own : before.shardOf id = s := (Cache.shardOf_displaced gives).symm.trans
      (Cache.shardOf_of_mem_order (List.mem_of_getLast? ends))
    subst own
    exact Cache.displaced?_reordered gives (tidyAfter.shards.trans tidy.tables.shards.symm) rearranged
      (tidyAfter.capacity.trans tidy.tables.capacity.symm)

/-- Four tables, one of them loaded after the others had expired. Of the expired ones the first and the
last are described, and for the other one the store fails: the last comes to the front, so that the table
before it is the next to give way. -/
theorem last_comes_to_front :
    let id (name : String) : TableId := ⟨"shop", name⟩
    let known (i : TableId) : Except Fault (Option Table) :=
      .ok (some ⟨i, [⟨"id", .int, .partitionKey⟩]⟩)
    let now : PerTable := ⟨fun i => if i = id "carts" then .error .timeout else known i⟩
    let config : Config := { metadataExpiry := 10, tableCapacity := 4 }
    let e := (new config ⟨known⟩).run [.columns (id "items"), .columns (id "carts"),
      .columns (id "orders"), .wait 11, .columns (id "stock"), .change now, .columns (id "orders")]
    let after := e.run (refreshing [3, 0, 2])
    e.world.Tidy config ∧ e.visit = none ∧ e.catalog.refreshing = true ∧
      [3, 0, 2].length = (e.catalog.stale e.world.clock).length ∧
      e.catalog.tables.order 0 = [id "orders", id "stock", id "carts", id "items"] ∧
      after.catalog.tables.order 0 = [id "items", id "orders", id "stock", id "carts"] ∧
      e.catalog.tables.displaced? (id "users") = some (id "items") ∧
      after.catalog.tables.displaced? (id "users") = some (id "carts") := by
  intro id known now config e after
  have tidy : e.world.Tidy config := (tidy_run config _ _).world
  have each : [3, 0, 2].length = (e.catalog.stale e.world.clock).length := by decide +kernel
  have unvisited : e.visit = none := Option.isNone_iff_eq_none.mp (by decide +kernel)
  have started : e.catalog.refreshing = true := by decide +kernel
  obtain ⟨order, -, kept⟩ := refresh_reorders tidy unvisited started each 0
  have told : ((reports e.world.store e.world.clock ((e.catalog.stale e.world.clock).zip [3, 0, 2])).filter
      fun r => e.catalog.tables.shardOf r.table = 0) = [⟨id "orders", known (id "orders"), 14⟩, ⟨id "carts", .error .timeout, 14⟩,
        ⟨id "items", known (id "items"), 16⟩] := by decide +kernel
  have before : e.catalog.tables.order 0 = [id "orders", id "stock", id "carts", id "items"] := by
    decide +kernel
  have ends : (e.catalog.tables.order 0).getLast? = some (id "items") := by decide +kernel
  have gives : e.catalog.tables.displaced? (id "users") = some (id "items") := by decide +kernel
  rw [told] at order kept
  clear_value e
  obtain ⟨-, last⟩ := kept (by decide +kernel)
  obtain ⟨behind, -, next⟩ := last _ ends
  rw [before] at order behind
  refine ⟨tidy, unvisited, started, each, before, order.trans ?_, gives,
    (next _ gives).trans (behind.trans ?_)⟩ <;> decide +kernel

/-- Two tables that have expired, both of which are described: their order is reversed, and the table that
is used at the time is the next to give way, in place of the other one. -/
theorem refresh_reverses :
    let id (name : String) : TableId := ⟨"shop", name⟩
    let store : PerTable := ⟨fun i => .ok (some ⟨i, [⟨"id", .int, .partitionKey⟩]⟩)⟩
    let config : Config := { metadataExpiry := 10, tableCapacity := 2 }
    let e := (new config store).run [.columns (id "carts"), .columns (id "orders"), .wait 11,
      .columns (id "orders")]
    let after := e.run (refreshing [0, 0])
    e.visit = none ∧ e.catalog.refreshing = true ∧
      e.catalog.stale e.world.clock = [id "orders", id "carts"] ∧
      missing (reports e.world.store e.world.clock ((e.catalog.stale e.world.clock).zip [0, 0])) = [] ∧
      e.catalog.tables.order 0 = [id "orders", id "carts"] ∧
      after.catalog.tables.order 0 = [id "carts", id "orders"] ∧
      e.catalog.tables.displaced? (id "stock") = some (id "carts") ∧
      after.catalog.tables.displaced? (id "stock") = some (id "orders") := by
  intro id store config e after
  have unvisited : e.visit = none := Option.isNone_iff_eq_none.mp (by decide +kernel)
  refine ⟨unvisited, ?_, ?_, ?_, ?_, ?_, ?_, ?_⟩ <;> decide +kernel

end Engine
end WideColumn
