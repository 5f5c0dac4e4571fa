import WideColumn.Proofs.Cache.Recency

/-!
What a place that is put in front does to the others: it makes at most one of them give way, the one of
its shard that was used the longest ago, and none if its key has a place already or the shard has room.
-/
namespace WideColumn.Cache

variable {κ ν : Type}

section Last

variable {places : List (Place κ ν)} [DecidableEq κ]

/-- Without the last place its key has none, and the others are as they were. -/
theorem find?_dropLast (keys : (places.map Place.key).Nodup) (j : κ) :
    places.dropLast.find? (·.key = j) =
      if places.getLast?.map Place.key = some j then none else places.find? (·.key = j) := by
  induction places using List.reverseRecOn with
  | nil => simp
  | append_singleton places last _ =>
    rw [List.map_append, List.nodup_append] at keys
    rw [List.dropLast_concat, List.getLast?_concat, List.find?_append]
    by_cases same : last.key = j
    · have absent : places.find? (·.key = j) = none := by
        refine List.find?_eq_none.mpr fun p hp key => ?_
        refine keys.2.2 p.key (List.mem_map_of_mem hp) last.key (by simp) ?_
        exact (of_decide_eq_true key).trans same.symm
      simp [same, absent]
    · simp [same]

/-- Places of other keys do not matter. -/
theorem find?_filter_ne {k j : κ} (ne : j ≠ k) :
    (places.filter (·.key ≠ k)).find? (·.key = j) = places.find? (·.key = j) := by
  rw [List.find?_filter]
  congr 1
  funext p
  by_cases h : p.key = j <;> simp [h, ne]

end Last

variable {n : Nat} {c : Cache κ ν} {k j : κ} [DecidableEq κ]

theorem find?_remove (c : Cache κ ν) (k j : κ) :
    (c.remove k).find? j = if j = k then none else c.find? j := by
  rw [find?, remove]
  split
  · rename_i same
    simp [same]
  · rename_i ne
    exact find?_filter_ne ne

variable [Hashed κ]

/-- The key whose place gives way when one for this key is put in front. -/
def displaced? (c : Cache κ ν) (k : κ) : Option κ :=
  if (c.find? k).isSome || (c.shard (c.shardOf k)).length < c.capacity then none
  else (c.shard (c.shardOf k)).getLast?.map Place.key

theorem displaced?_of_find? {p : Place κ ν} (h : c.find? k = some p) : c.displaced? k = none := by
  rw [displaced?, h]
  rfl

/-- A place gives way only if the shard is full and the key has none, and then it was used the longest
ago. -/
theorem displaced?_eq_some : c.displaced? k = some j ↔
    c.find? k = none ∧ c.capacity ≤ (c.shard (c.shardOf k)).length ∧
      ∃ before last, c.shard (c.shardOf k) = before ++ [last] ∧ last.key = j := by
  rw [displaced?]
  cases c.find? k with
  | some p => simp
  | none =>
    by_cases room : (c.shard (c.shardOf k)).length < c.capacity
    · simp [room]
    · simp [room, List.getLast?_eq_some_iff]
      grind

/-- It belongs to the same shard. -/
theorem shardOf_displaced (h : c.displaced? k = some j) : c.shardOf j = c.shardOf k := by
  obtain ⟨-, -, before, last, shard, rfl⟩ := displaced?_eq_some.mp h
  exact (mem_shard.mp (shard ▸ List.mem_concat_self : last ∈ c.shard (c.shardOf k))).2

namespace Tidy

theorem find?_put (tidy : c.Tidy n) (p : Place κ ν) (j : κ) : (c.put p).find? j =
    if j = p.key then some p else if c.displaced? p.key = some j then none else c.find? j := by
  have placed : (c.put p).find? j = ((c.put p).shard (c.shardOf j)).find? (·.key = j) :=
    (find?_shard (c.put p) j).symm
  rw [placed, shard_put]
  by_cases own : c.shardOf j = c.shardOf p.key
  case neg =>
    -- another shard, in which nothing changes
    have ne : j ≠ p.key := fun same => own (congrArg c.shardOf same)
    rw [if_neg own, if_neg ne, if_neg fun h => own (shardOf_displaced h), find?_shard]
  obtain ⟨m, hm⟩ := Nat.exists_eq_add_one.mpr c.capacity_pos
  rw [if_pos own, own, hm, List.take_succ_cons, List.find?_cons]
  by_cases same : j = p.key
  · simp [same]
  · rw [if_neg same]
    simp only [Ne.symm same, decide_false]
    have bounded := (tidy.bounded (c.shardOf p.key)).trans_eq (tidy.capacity.symm.trans hm)
    have filtered := List.length_filter_le (fun q : Place κ ν => decide (q.key ≠ p.key))
      (c.shard (c.shardOf p.key))
    rw [← find?_shard c j, own]
    by_cases there : (c.find? p.key).isSome
    · -- the place of this key leaves room for the new one
      obtain ⟨q, hq⟩ := Option.isSome_iff_exists.mp there
      have fewer : ((c.shard (c.shardOf p.key)).filter (·.key ≠ p.key)).length <
          (c.shard (c.shardOf p.key)).length := by
        obtain ⟨mem, key⟩ := Holds.find?_some hq
        exact List.length_filter_lt_length_iff_exists.mpr
          ⟨q, mem_shard.mpr ⟨mem, congrArg c.shardOf key⟩, by simp [key]⟩
      rw [List.take_of_length_le (by omega), find?_filter_ne same, displaced?_of_find? hq]
      simp
    · have others : (c.shard (c.shardOf p.key)).filter (·.key ≠ p.key) = c.shard (c.shardOf p.key) := by
        refine List.filter_eq_self.mpr fun q hq => decide_eq_true fun key => there ?_
        exact List.find?_isSome.mpr ⟨q, (mem_shard.mp hq).1, by simpa using key⟩
      rw [others, displaced?, Bool.eq_false_iff.mpr there, Bool.false_or, hm]
      by_cases free : (c.shard (c.shardOf p.key)).length < m + 1
      · rw [List.take_of_length_le (by omega)]
        simp [free]
      · have full : (c.shard (c.shardOf p.key)).take m = (c.shard (c.shardOf p.key)).dropLast := by
          rw [List.dropLast_eq_take]
          congr 1
          omega
        rw [full, find?_dropLast (tidy.shard_keys _)]
        simp [free]

/-- The places after a key has been looked up. -/
theorem find?_acquire (tidy : c.Tidy n) (k j : κ) : (c.acquire k).2.find? j =
    if j = k then some (c.acquire k).1 else if c.displaced? k = some j then none else c.find? j := by
  obtain ⟨p, -, rfl, acquired⟩ | ⟨-, acquired⟩ := c.acquire_cases k <;> rw [acquired]
  · exact tidy.find?_put p j
  · exact tidy.find?_put ⟨k, c.nextSlot, none⟩ j

theorem find?_insert (tidy : c.Tidy n) (k : κ) (v : ν) (j : κ) :
    (c.insert k v).find? j = if j = k then some ⟨k, c.nextSlot, some v⟩
      else if c.displaced? k = some j then none else c.find? j :=
  tidy.find?_put ⟨k, c.nextSlot, some v⟩ j

end Tidy

/-- The value of a key is that of its place. -/
theorem get_value (c : Cache κ ν) (k : κ) : (c.get k).1 = (c.find? k).bind Place.value := by
  rw [get]
  cases c.find? k <;> rfl

/-- The place acquired for a key has the value of the key. -/
theorem acquire_value (c : Cache κ ν) (k : κ) : (c.acquire k).1.value = (c.get k).1 := by
  rw [acquire, get]
  cases c.find? k <;> rfl

end WideColumn.Cache
