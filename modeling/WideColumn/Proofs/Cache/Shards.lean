import Mathlib.Algebra.Order.BigOperators.Group.List
import Mathlib.Algebra.Order.Group.Nat
import WideColumn.Proofs.Cache.Holds

/-!
Each shard is a bounded list of its own: what is put into a cache stands in front in the shard of its key,
and the other shards stay as they are.
-/
namespace WideColumn.Cache

/-- A cache for fewer than 32 places has one shard. -/
theorem shardCount_of_lt {n : Nat} (h : n < 32) : shardCount n = 1 := by
  rw [shardCount, minPlaces, maxShards]
  omega

/-- It has room for just as many. -/
theorem shardCapacity_of_lt {n : Nat} (room : 0 < n) (h : n < 32) : shardCapacity n = n := by
  rw [shardCapacity, shardCount_of_lt h]
  omega

variable {κ ν : Type} [Hashed κ] {c : Cache κ ν} {p : Place κ ν} {k : κ} {s : Nat}

theorem mem_shard : p ∈ c.shard s ↔ p ∈ c.places ∧ c.shardOf p.key = s := by
  rw [shard, List.mem_filter, decide_eq_true_eq]

theorem shard_sublist (c : Cache κ ν) (s : Nat) : (c.shard s).Sublist c.places := List.filter_sublist

theorem shardOf_eq {d : Cache κ ν} (shards : d.shards = c.shards) : d.shardOf = c.shardOf := by
  funext k
  rw [shardOf, shardOf, shards]

/-- A cache of as many shards that has fewer places has fewer in each shard. -/
theorem shard_mono {d : Cache κ ν} (places : d.places.Sublist c.places) (shards : d.shards = c.shards)
    (s : Nat) : (d.shard s).Sublist (c.shard s) := by
  rw [shard, shard, shardOf_eq shards]
  exact places.filter _

theorem shard_settle (c : Cache κ ν) (slot : Nat) (v : ν) (s : Nat) : (c.settle slot v).shard s =
    (c.shard s).map fun p => if p.slot = slot then { p with value := some v } else p := by
  have places : (c.settle slot v).shard s = (c.places.map fun p =>
      if p.slot = slot then { p with value := some v } else p).filter (c.shardOf ·.key = s) := rfl
  rw [places, List.filter_map, shard]
  refine congrArg (List.map _) (List.filter_congr fun p _ => ?_)
  rw [Function.comp_apply]
  split <;> rfl

theorem shardOf_lt (c : Cache κ ν) (k : κ) : c.shardOf k < c.shards := Nat.mod_lt _ c.shards_pos

/-- The keys that have a value, whatever their order. -/
theorem loaded_perm (c : Cache κ ν) :
    c.loaded.Perm (c.places.filterMap fun p => p.value.map (p.key, ·)) := by
  rw [loaded, ← List.filterMap_flatMap]
  exact (flatMap_filter_perm fun p _ => c.shardOf_lt p.key).filterMap _

/-- Shards of bounded length are together bounded. -/
theorem length_places_le {n : Nat} (bounded : ∀ s, (c.shard s).length ≤ n) :
    c.places.length ≤ c.shards * n := by
  have whole : ((List.range c.shards).flatMap c.shard).length = c.places.length :=
    (flatMap_filter_perm fun p _ => c.shardOf_lt p.key).length_eq
  rw [← whole, List.length_flatMap]
  refine (List.sum_le_card_nsmul _ n fun m hm => ?_).trans_eq (by simp)
  obtain ⟨s, -, rfl⟩ := List.mem_map.mp hm
  exact bounded s

variable [DecidableEq κ]

/-- The place of a key is in its shard. -/
theorem find?_shard (c : Cache κ ν) (k : κ) :
    (c.shard (c.shardOf k)).find? (·.key = k) = c.find? k := by
  rw [shard, List.find?_filter, find?]
  congr 1
  funext p
  by_cases same : p.key = k <;> simp [same]

theorem shards_acquire (c : Cache κ ν) (k : κ) : (c.acquire k).2.shards = c.shards := by
  obtain ⟨p, -, -, acquired⟩ | ⟨-, acquired⟩ := c.acquire_cases k <;> rw [acquired] <;> rfl

theorem shard_remove (c : Cache κ ν) (k : κ) (s : Nat) :
    (c.remove k).shard s = (c.shard s).filter (·.key ≠ k) :=
  List.filter_comm ..

theorem shard_put (c : Cache κ ν) (p : Place κ ν) (s : Nat) : (c.put p).shard s =
    if s = c.shardOf p.key then (p :: (c.shard s).filter (·.key ≠ p.key)).take c.capacity
    else c.shard s := by
  have places : (c.put p).shard s = (keepFirst (fun q => c.shardOf q.key = c.shardOf p.key) c.capacity
      (p :: c.places.filter (·.key ≠ p.key))).filter fun q => c.shardOf q.key = s := rfl
  rw [places]
  split
  · rename_i own
    subst own
    rw [filter_keepFirst, List.filter_cons_of_pos (by simp), List.filter_comm]
    rfl
  · rename_i other
    rw [filter_keepFirst_other, List.filter_cons_of_neg (by simpa using Ne.symm other), List.filter_comm]
    · refine List.filter_eq_self.mpr fun q hq => decide_eq_true ?_
      exact fun same => other ((mem_shard.mp hq).2.symm.trans (congrArg c.shardOf same))
    · intro q hq
      simp only [decide_eq_true_eq, decide_eq_false_iff_not] at hq ⊢
      exact fun same => other (hq.symm.trans same)

end WideColumn.Cache
