import WideColumn.Proofs.Cache.Displaced
import WideColumn.Proofs.Engine.Tidy

/-!
What a failed load leaves behind. The caller gets the failure, and an empty place is kept for the key.
If that place is new and there is no room for it in its shard, the one of the shard that was used the longest
ago gives way.
-/
namespace WideColumn

variable {σ κ ν : Type}

namespace Call

/-- What the store's answer is a failure with, if it is asked for this. -/
def failure? [Store σ] (s : σ) : Call → Option Error
  | .prepare text =>
    match (Store.prepare text s).1 with
    | .ok _ => none
    | .error fault => some (.transport fault)
  | .getColumns id =>
    match (Store.describeTable id s).1 with
    | .ok (some _) => none
    | .ok none => some (.tableNotFound id.display)
    | .error fault => some (.transport fault)
  | .getType name =>
    match (Store.describeType name s).1 with
    | .ok (some _) => none
    | .ok none => some (.typeNotFound name.keyspace name.name)
    | .error fault => some (.transport fault)

/-- The store when it has been asked for this, and the event that is logged. -/
def asked [Store σ] (s : σ) : Call → σ × Event
  | .prepare text => ((Store.prepare text s).2, .prepare text (Store.prepare text s).1)
  | .getColumns id => ((Store.describeTable id s).2, .describeTable id (Store.describeTable id s).1)
  | .getType name => ((Store.describeType name s).2, .describeType name (Store.describeType name s).1)

end Call

namespace World

/-- What has been loaded for a call. -/
def cached (w : World σ) : Call → Option Reply
  | .prepare text => (w.statements.get text).1.map .prepared
  | .getColumns id => (w.catalog.tables.get id).1.map .columns
  | .getType name => (w.catalog.types.get name).1.map .type

/-- There is a place for the call, in front of the others. -/
def acquired (w : World σ) : Call → World σ
  | .prepare text => Shelf.statements.set (w.statements.acquire text).2 w
  | .getColumns id => Shelf.tables.set (w.catalog.tables.acquire id).2 w
  | .getType name => Shelf.types.set (w.catalog.types.acquire name).2 w

/-- The call whose place gives way to one for this call. -/
def displaced? (w : World σ) : Call → Option Call
  | .prepare text => (w.statements.displaced? text).map .prepare
  | .getColumns id => (w.catalog.tables.displaced? id).map .getColumns
  | .getType name => (w.catalog.types.displaced? name).map .getType

end World

namespace Cache.Tidy

variable [DecidableEq κ] [Hashed κ] {n : Nat} {c : Cache κ ν} {k : κ}

/-- Looking up a key without a value makes one place at most give way. -/
theorem get_acquire (tidy : c.Tidy n) (missing : (c.get k).1 = none) (j : κ) :
    ((c.acquire k).2.get j).1 = if c.displaced? k = some j then none else (c.get j).1 := by
  rw [get_value, tidy.find?_acquire]
  by_cases same : j = k
  · subst same
    simp [acquire_value, missing]
  · rw [if_neg same, get_value]
    split <;> rfl

/-- The key has a place then. -/
theorem displaced?_acquire (tidy : c.Tidy n) : (c.acquire k).2.displaced? k = none :=
  displaced?_of_find? ((tidy.find?_acquire k k).trans (if_pos rfl))

end Cache.Tidy

namespace Op

variable {w u : World σ} {config : Config}

/-- A failed load is what becomes of the call. -/
theorem getOrLoad_failed [DecidableEq κ] [Hashed κ] {shelf : Shelf σ κ ν} {k : κ} {load : Op σ ν} {e : Error}
    (missing : ((shelf.get w).get k).1 = none)
    (failed : load.run (shelf.set ((shelf.get w).acquire k).2 w) = (.error e, u)) :
    (getOrLoad shelf k load).run w = (.error e, u) := by
  rw [← Cache.acquire_value] at missing
  have got := got shelf k load w
  generalize (getOrLoad shelf k load).run w = r at got
  cases got with
  | found value => cases missing.symm.trans value
  | failed _ ran => exact ran.symm.trans failed
  | loaded _ ran => cases ran.symm.trans failed

variable [Store σ]

/-- The calls one by one. -/
def call : Call → Op σ Reply
  | .prepare text => .prepared <$> prepare text
  | .getColumns id => .columns <$> getColumns id
  | .getType name => .type <$> getType name

/-- A call that fails has looked its key up and asked the store, and that is all. -/
theorem call_failed {c : Call} {e : Error} (missing : w.cached c = none)
    (fails : c.failure? w.store = some e) : (call c).run w =
      (.error e, (w.acquired c).answered (c.asked w.store).1 (c.asked w.store).2) := by
  cases c with
  | prepare text =>
    refine run_bind_error (getOrLoad_failed (Option.map_eq_none_iff.mp missing) ?_)
    rw [run_bind_ok (run_ask _ _ _)]
    show (orFault (Store.prepare text w.store).1 : Op σ Prepared).run _ = _
    rw [Call.failure?] at fails
    cases answer : (Store.prepare text w.store).1 <;> rw [answer] at fails <;> cases fails
    rfl
  | getColumns id =>
    refine run_bind_error (run_bind_error (getOrLoad_failed (Option.map_eq_none_iff.mp missing) ?_))
    rw [tableLoad_run]
    show (tableEntry id (Store.describeTable id w.store).1).run _ = _
    rw [Call.failure?] at fails
    rcases answer : (Store.describeTable id w.store).1 with fault | _ | table <;>
      rw [answer] at fails <;> cases fails <;> rfl
  | getType name =>
    refine run_bind_error (getOrLoad_failed (Option.map_eq_none_iff.mp missing) ?_)
    rw [typeLoad_run]
    show (knownType name (Store.describeType name w.store).1).run _ = _
    rw [Call.failure?] at fails
    rcases answer : (Store.describeType name w.store).1 with fault | _ | type <;>
      rw [answer] at fails <;> cases fails <;> rfl

end Op

namespace World.Tidy

variable {w : World σ} {config : Config} {c : Call}

/-- What is cached when a place has been acquired for a call. -/
theorem cached_acquired (tidy : w.Tidy config) (missing : w.cached c = none) (d : Call) :
    (w.acquired c).cached d = if w.displaced? c = some d then none else w.cached d := by
  -- each of the caches for itself, its calls being told apart by their keys
  have own {κ ν : Type} [DecidableEq κ] [Hashed κ] {n : Nat} {cache : Cache κ ν} {k : κ} (j : κ) {reply : ν → Reply}
      {ask : κ → Call} (apart : ∀ i, ask i = ask j → i = j) (tidy : cache.Tidy n)
      (missing : (cache.get k).1.map reply = none) : ((cache.acquire k).2.get j).1.map reply =
        if (cache.displaced? k).map ask = some (ask j) then none else (cache.get j).1.map reply := by
    rw [tidy.get_acquire (Option.map_eq_none_iff.mp missing)]
    cases cache.displaced? k <;> grind
  cases c <;> cases d <;>
    first
    | exact own _ (fun _ same => Call.prepare.inj same) tidy.statements missing
    | exact own _ (fun _ same => Call.getColumns.inj same) tidy.tables missing
    | exact own _ (fun _ same => Call.getType.inj same) tidy.types missing
    | simp [acquired, cached, displaced?, Shelf.statements, Shelf.tables, Shelf.types]

theorem displaced?_acquired (tidy : w.Tidy config) (c : Call) : (w.acquired c).displaced? c = none := by
  cases c with
  | prepare text => exact congrArg (Option.map _) (tidy.statements.displaced?_acquire)
  | getColumns id => exact congrArg (Option.map _) (tidy.tables.displaced?_acquire)
  | getType name => exact congrArg (Option.map _) (tidy.types.displaced?_acquire)

end World.Tidy

/-- A call whose load fails fails with that. All that was loaded stays as it is, but for the one place
that gives way, and repeating the call costs no other. -/
theorem failed_call_displaces [Store σ] {config : Config} {w : World σ} {c : Call} {e : Error}
    (tidy : w.Tidy config) (missing : w.cached c = none) (fails : c.failure? w.store = some e) :
    ∃ v, (Op.call c).run w = (.error e, v) ∧ v.displaced? c = none ∧
      ∀ d, v.cached d = if w.displaced? c = some d then none else w.cached d := by
  refine ⟨_, Op.call_failed missing fails, ?_, fun d => ?_⟩
  · have after := tidy.displaced?_acquired c
    cases c <;> exact after
  · rw [← tidy.cached_acquired missing d]
    cases d <;> rfl

/-- Both places for tables are taken when a table is asked for that does not exist. The one looked up
last stays, and so does the statement. -/
theorem missing_table_displaces :
    let id (name : String) : TableId := ⟨"shop", name⟩
    let table (name : String) : Table := ⟨id name, [⟨"id", .int, .partitionKey⟩]⟩
    let w := ((Engine.new { tableCapacity := 2 } ({ tables := [table "orders", table "items"] } : Script)).run
      [.columns (id "orders"), .prepare "SELECT id FROM shop.orders", .columns (id "items")]).world
    let c : Call := .getColumns (id "refunds")
    w.Tidy { tableCapacity := 2 } ∧ w.cached c = none ∧
      c.failure? w.store = some (.tableNotFound "shop.refunds") ∧
      ∃ v, (Op.call c).run w = (.error (.tableNotFound "shop.refunds"), v) ∧ v.displaced? c = none ∧
        v.cached (.getColumns (id "orders")) = none ∧
        v.cached (.getColumns (id "items")) = some (.columns ⟨table "items", 0⟩) ∧
        v.cached (.prepare "SELECT id FROM shop.orders") =
          some (.prepared ⟨"stmt-0", "SELECT id FROM shop.orders"⟩) := by
  intro id table w c
  have tidy : w.Tidy { tableCapacity := 2 } := (Engine.tidy_run ..).world
  have missing : w.cached c = none := by decide +kernel
  have fails : c.failure? w.store = some (.tableNotFound "shop.refunds") := by decide +kernel
  obtain ⟨v, ran, next, cached⟩ := failed_call_displaces tidy missing fails
  refine ⟨tidy, missing, fails, v, ran, next, ?_, ?_, ?_⟩ <;> rw [cached] <;> decide +kernel

/-- A text that cannot be prepared drops the one statement there is room for. -/
theorem failed_prepare_displaces :
    let w := ((Engine.new { statementCapacity := 1 } ({} : Script)).run
      [.prepare "A", .change { prepareFaults := [.invalidQuery "x"], prepared := 1 }]).world
    (Call.prepare "B").failure? w.store = some (.transport (.invalidQuery "x")) ∧
      w.cached (.prepare "A") = some (.prepared ⟨"stmt-0", "A"⟩) ∧ w.cached (.prepare "B") = none ∧
      ((Op.call (.prepare "B")).run w).2.cached (.prepare "A") = none := by
  exact ⟨rfl, by decide +kernel, by decide +kernel, by decide +kernel⟩

end WideColumn
