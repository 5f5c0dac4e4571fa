import WideColumn.Proofs.Engine.FailedCalls
import WideColumn.Proofs.Engine.Resolution
import WideColumn.Proofs.Engine.TextKey

/-!
What is cached is given out as it is. Nothing is asked for, and nothing gives way.
-/
namespace WideColumn

variable {σ κ ν : Type} {config : Config}

/-- Looking up a key that has a value leaves every key its value. -/
theorem Cache.Tidy.get_acquire_found [DecidableEq κ] [Hashed κ] {n : Nat} {c : Cache κ ν} {k : κ} {v : ν}
    (tidy : c.Tidy n) (found : (c.get k).1 = some v) (j : κ) :
    ((c.acquire k).2.get j).1 = (c.get j).1 := by
  rw [get_value, tidy.find?_acquire]
  by_cases same : j = k
  · subst same
    rw [if_pos rfl, Option.bind_some, acquire_value]
  · have stays : c.displaced? k = none := by
      rw [get_value] at found
      obtain ⟨p, there, -⟩ := Option.bind_eq_some_iff.mp found
      exact displaced?_of_find? there
    rw [if_neg same, stays, if_neg (by simp), get_value]

namespace World

variable {w u v : World σ}

/-- Nothing was asked of the store, and every call still finds what is cached for it. -/
structure Reread (w u : World σ) : Prop where
  store : u.store = w.store
  trace : u.trace = w.trace
  cached : ∀ c, u.cached c = w.cached c

namespace Reread

theorem refl (w : World σ) : w.Reread w := ⟨rfl, rfl, fun _ => rfl⟩

theorem trans (h : w.Reread u) (h' : u.Reread v) : w.Reread v where
  store := h'.store.trans h.store
  trace := h'.trace.trans h.trace
  cached c := (h'.cached c).trans (h.cached c)

end Reread

theorem cached_prepare {text : String} {p : Prepared} :
    w.cached (.prepare text) = some (.prepared p) ↔ (w.statements.get text).1 = some p := by
  simp [World.cached]

theorem cached_getColumns {id : TableId} {entry : TableEntry} :
    w.cached (.getColumns id) = some (.columns entry) ↔ (w.catalog.tables.get id).1 = some entry := by
  simp [World.cached]

theorem cached_getType {name : TypeName} {type : UserType} :
    w.cached (.getType name) = some (.type type) ↔ (w.catalog.types.get name).1 = some type := by
  simp [World.cached]

theorem CachesKept.cached (kept : w.CachesKept u) (c : Call) : u.cached c = w.cached c := by
  cases c <;> simp only [World.cached, kept.tables, kept.types, kept.statements]

theorem Tidy.reread_acquired (tidy : w.Tidy config) {c : Call} {reply : Reply}
    (found : w.cached c = some reply) : w.Reread (w.acquired c) := by
  have own {κ ν : Type} [DecidableEq κ] [Hashed κ] {n : Nat} {cache : Cache κ ν} {k : κ} {f : ν → Reply}
      (tidy : cache.Tidy n) (found : (cache.get k).1.map f = some reply) (j : κ) :
      ((cache.acquire k).2.get j).1 = (cache.get j).1 := by
    obtain ⟨v, hv, -⟩ := Option.map_eq_some_iff.mp found
    exact tidy.get_acquire_found hv j
  refine ⟨by cases c <;> rfl, by cases c <;> rfl, fun d => ?_⟩
  cases c <;> cases d <;>
    first
    | exact congrArg (Option.map _) (own tidy.statements found _)
    | exact congrArg (Option.map _) (own tidy.tables found _)
    | exact congrArg (Option.map _) (own tidy.types found _)
    | rfl

end World

namespace Op

variable {w u : World σ}

variable [Store σ]

theorem prepare_found (tidy : w.Tidy config) {text : String} {p : Prepared}
    (found : w.cached (.prepare text) = some (.prepared p)) :
    ∃ u, (prepare text).run w = (.ok p, u) ∧ w.Reread u :=
  ⟨w.acquired (.prepare text), getOrLoad_found ((Cache.acquire_value ..).trans (World.cached_prepare.mp found)),
    tidy.reread_acquired found⟩

theorem getType_found (tidy : w.Tidy config) {name : TypeName} {type : UserType}
    (found : w.cached (.getType name) = some (.type type)) :
    ∃ u, (getType name).run w = (.ok type, u) ∧ w.Reread u :=
  ⟨w.acquired (.getType name), getOrLoad_found ((Cache.acquire_value ..).trans (World.cached_getType.mp found)),
    tidy.reread_acquired found⟩

/-- An expired entry starts a refresh, which is left to the background. -/
theorem getColumns_found (tidy : w.Tidy config) {id : TableId} {entry : TableEntry}
    (found : w.cached (.getColumns id) = some (.columns entry)) :
    ∃ u, (getColumns id).run w = (.ok entry, u) ∧ w.Reread u := by
  have got : (getOrLoad .tables id do tableEntry id (← ask (Store.describeTable id)
      (.describeTable id)) : Op σ TableEntry).run w = (.ok entry, w.acquired (.getColumns id)) :=
    getOrLoad_found ((Cache.acquire_value ..).trans (World.cached_getColumns.mp found))
  have served : (getColumns id).run w = _ :=
    (run_bind_ok got).trans (run_serve entry (w.acquired (.getColumns id)))
  refine ⟨_, served, (tidy.reread_acquired found).trans ?_⟩
  split
  · have kept : World.CachesKept (w.acquired (.getColumns id)) { w.acquired (.getColumns id) with
        catalog := (w.acquired (.getColumns id)).catalog.startRefresh true } :=
      ⟨Catalog.startRefresh_tables, Catalog.startRefresh_types, rfl⟩
    exact ⟨rfl, rfl, kept.cached⟩
  · exact .refl _

variable {keyspace : String} {pending : List String} {resolved found : TypeDefs} {v : World σ}
  {r : Except Error TypeDefs × World σ}

theorem resolveFrom_skip {name : String} (there : (resolved.lookup name).isSome) (bound : Nat) :
    (resolveFrom keyspace bound (pending ++ [name]) resolved : Op σ TypeDefs) =
      resolveFrom keyspace bound pending resolved := by
  cases bound with
  | zero => rfl
  | succ bound => rw [resolveFrom, popUnresolved_concat, if_pos there, resolveFrom]

/-- With all types cached that it has found, the loop takes the same turns again and finds the same. -/
theorem Resolves.again (h : Resolves keyspace pending resolved w found r) {types : TypeDefs}
    (ok : r.1 = .ok types) {x : World σ} (tidy : x.Tidy config)
    (cached : ∀ d ∈ found, x.cached (.getType ⟨keyspace, d.1⟩) = some (.type d.2)) (bound : Nat)
    (enough : found.length < bound + resolved.length) :
    ∃ y, (resolveFrom keyspace bound pending resolved).run x = (.ok types, y) ∧ x.Reread y := by
  induction h generalizing x bound with
  | done =>
    cases ok
    refine ⟨x, ?_, .refl x⟩
    cases bound <;> rfl
  | skip there rest ih =>
    rw [resolveFrom_skip there]
    exact ih ok tidy cached bound enough
  | fail => cases ok
  | @add pending name type resolved found w v r new ran rest ih =>
    have longer := rest.suffix.length_le
    rw [List.length_cons] at longer
    obtain ⟨bound, rfl⟩ : ∃ n, bound = n + 1 := Nat.exists_eq_add_one.mpr (by omega)
    obtain ⟨y, got, reread⟩ := getType_found tidy (cached (name, type) (rest.suffix.mem List.mem_cons_self))
    have after : y.Tidy config := (KeepsTidy.getType ⟨keyspace, name⟩).ran tidy got
    obtain ⟨z, looped, reread'⟩ := ih ok after (fun d hd => (reread.cached _).trans (cached d hd)) bound
      (by rw [List.length_cons]; omega)
    refine ⟨z, ?_, reread.trans reread'⟩
    rw [resolveFrom, popUnresolved_concat, if_neg (by simp [new])]
    exact (run_bind_ok got).trans looped

end Op
end WideColumn
