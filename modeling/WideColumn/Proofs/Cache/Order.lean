import WideColumn.Proofs.Cache.Displaced

/-!
The order of the keys in a shard, in which the last one is the first to give way, and what becomes of it
when some of them are put in front one after the other.
-/
namespace WideColumn

section Front

variable {κ : Type} [DecidableEq κ] {keys order : List κ} {k : κ}

/-- The order after these keys have been put in front, one after the other. -/
def broughtForward (keys order : List κ) : List κ := keys.reverse ++ order.filter (· ∉ keys)

theorem broughtForward_nil (order : List κ) : broughtForward [] order = order := by
  simp [broughtForward]

theorem broughtForward_cons (new : k ∉ keys) (order : List κ) :
    broughtForward keys (k :: order.filter (· ≠ k)) = broughtForward (k :: keys) order := by
  simp [broughtForward, new, Bool.and_comm]

omit [DecidableEq κ] in
/-- If of distinct keys the first is the last, it is the only one. -/
theorem eq_singleton_of_ends (distinct : keys.Nodup) (first : keys.head? = some k)
    (last : keys.getLast? = some k) : keys = [k] := by
  obtain ⟨later, rfl⟩ := List.head?_eq_some_iff.mp first
  obtain ⟨before, split⟩ := List.getLast?_eq_some_iff.mp last
  cases before with
  | nil => exact split
  | cons j between =>
    obtain ⟨-, rfl⟩ := List.cons.inj split
    simp at distinct

/-- The order stays as it is only if nothing is put in front, or what stands there already. -/
theorem broughtForward_eq_self_iff (distinct : order.Nodup) (among : keys.Sublist order) :
    broughtForward keys order = order ↔ keys.length ≤ 1 ∧ keys <+: order := by
  constructor
  · intro same
    have front : keys.reverse <+: order := ⟨_, same⟩
    -- both are parts of the order, in which no key comes twice
    have palindrome : keys.reverse = keys :=
      (distinct.perm_iff_eq_of_sublist front.sublist among).mp keys.reverse_perm
    refine ⟨?_, palindrome ▸ front⟩
    cases keys with
    | nil => exact Nat.zero_le 1
    | cons k later =>
      have last : (k :: later).getLast? = some k := by
        rw [← List.head?_reverse, palindrome]
        rfl
      rw [eq_singleton_of_ends (distinct.sublist among) rfl last]
      exact Nat.le_refl 1
  · rintro ⟨few, behind, rfl⟩
    match keys, few with
    | [], _ => exact broughtForward_nil _
    | [k], _ =>
      have others : behind.filter (· ≠ k) = behind := by
        refine List.filter_eq_self.mpr fun j hj => decide_eq_true ?_
        rintro rfl
        exact (List.nodup_cons.mp distinct).1 hj
      simpa [broughtForward] using others

/-- The last one is the last of those left behind, or else the one put in front first. -/
theorem getLast?_broughtForward (keys order : List κ) : (broughtForward keys order).getLast? =
    (order.filter (· ∉ keys)).getLast?.or keys.head? := by
  rw [broughtForward, List.getLast?_append, List.getLast?_reverse]

/-- The last one stays the last only if it is not put in front, or if it is the only one. -/
theorem getLast?_broughtForward_eq_iff (distinct : order.Nodup) (among : keys.Sublist order)
    (last : order.getLast? = some k) :
    (broughtForward keys order).getLast? = some k ↔ (k ∈ keys → order = [k]) := by
  rw [getLast?_broughtForward]
  by_cases moved : k ∈ keys
  · rw [imp_iff_right moved]
    cases left : (order.filter (· ∉ keys)).getLast? with
    | some j =>
      -- the last of those left behind is another one
      have stays := List.mem_of_getLast? left
      constructor
      · rintro ⟨rfl⟩
        simp [moved] at stays
      · rintro rfl
        simp [moved] at stays
    | none =>
      have all : ∀ j ∈ order, j ∈ keys := by simpa using left
      have same : keys = order := among.eq_of_length_le (distinct.subperm all).length_le
      subst same
      constructor
      · exact fun first => eq_singleton_of_ends distinct first last
      · rintro rfl
        rfl
  · obtain ⟨before, rfl⟩ := List.getLast?_eq_some_iff.mp last
    simp [moved]

theorem broughtForward_perm (distinct : order.Nodup) (among : keys.Sublist order) :
    (broughtForward keys order).Perm order := by
  have moved : keys.Perm (order.filter (· ∈ keys)) := by
    refine (List.perm_ext_iff_of_nodup (distinct.sublist among) (distinct.filter _)).mpr fun k => ?_
    simpa using fun hk => among.subset hk
  have split := List.filter_append_perm (· ∈ keys) order
  simp only [← decide_not] at split
  exact ((keys.reverse_perm.trans moved).append_right _).trans split

end Front

namespace Cache

variable {κ ν : Type} [Hashed κ] {n s : Nat} {c d : Cache κ ν} {k last : κ}

/-- The keys of a shard that have a place, most recently used first. -/
def order (c : Cache κ ν) (s : Nat) : List κ := (c.shard s).map Place.key

theorem shardOf_of_mem_order (h : k ∈ c.order s) : c.shardOf k = s := by
  obtain ⟨p, hp, rfl⟩ := List.mem_map.mp h
  exact (mem_shard.mp hp).2

/-- The keys of a shard that have a value are listed in the order of their places. -/
theorem loaded_sublist (c : Cache κ ν) (s : Nat) :
    ((c.loaded.map Prod.fst).filter (c.shardOf · = s)).Sublist (c.order s) := by
  have block (i : Nat) : (((c.shard i).filterMap fun p => p.value.map (p.key, ·)).filter
      fun e => c.shardOf e.1 = s) =
        if i = s then (c.shard i).filterMap fun p => p.value.map (p.key, ·) else [] := by
    have own : ∀ e ∈ (c.shard i).filterMap fun p => p.value.map (p.key, ·), c.shardOf e.1 = i := by
      intro e he
      obtain ⟨p, hp, value⟩ := List.mem_filterMap.mp he
      obtain ⟨v, -, rfl⟩ := Option.map_eq_some_iff.mp value
      exact (mem_shard.mp hp).2
    split
    · rename_i same
      exact List.filter_eq_self.mpr fun e he => decide_eq_true ((own e he).trans same)
    · rename_i other
      exact List.filter_eq_nil_iff.mpr fun e he => by simpa [own e he] using other
  have listed : (c.loaded.map Prod.fst).filter (c.shardOf · = s) =
      (if s < c.shards then (c.shard s).filterMap fun p => p.value.map (p.key, ·) else []).map Prod.fst := by
    rw [List.filter_map, loaded, List.filter_flatMap]
    refine congrArg (List.map _) ((List.flatMap_congr fun i _ => block i).trans ?_)
    exact flatMap_range_ite (fun i => (c.shard i).filterMap fun p => p.value.map (p.key, ·)) _ _
  rw [listed, order]
  split
  · induction c.shard s with
    | nil => exact .slnil
    | cons p rest ih =>
      cases value : p.value with
      | none => simpa [value] using ih.cons _
      | some v => simpa [value] using ih
  · exact List.nil_sublist _

variable [DecidableEq κ]

theorem mem_order : k ∈ c.order (c.shardOf k) ↔ (c.find? k).isSome := by
  rw [← find?_shard, List.find?_isSome]
  simp [order]

/-- The key whose place gives way is the last of a full shard. -/
theorem displaced?_eq_some_order : c.displaced? k = some last ↔ k ∉ c.order (c.shardOf k) ∧
    c.capacity ≤ (c.order (c.shardOf k)).length ∧ (c.order (c.shardOf k)).getLast? = some last := by
  have absent : c.find? k = none ↔ k ∉ c.order (c.shardOf k) := by simp [mem_order]
  have ends : (∃ before p, c.shard (c.shardOf k) = before ++ [p] ∧ p.key = last) ↔
      (c.order (c.shardOf k)).getLast? = some last := by
    simp only [order, List.getLast?_map, Option.map_eq_some_iff, List.getLast?_eq_some_iff]
    grind
  rw [displaced?_eq_some, absent, ends, order, List.length_map]

/-- If a place has to give way, it is the last one also when the order has changed. -/
theorem displaced?_reordered (gives : c.displaced? k = some last) (shards : d.shards = c.shards)
    (same : (d.order (c.shardOf k)).Perm (c.order (c.shardOf k))) (capacity : d.capacity = c.capacity) :
    d.displaced? k = (d.order (c.shardOf k)).getLast? := by
  obtain ⟨absent, full, ends⟩ := displaced?_eq_some_order.mp gives
  cases behind : (d.order (c.shardOf k)).getLast? with
  | none =>
    have empty : c.order (c.shardOf k) = [] :=
      List.nil_perm.mp (List.getLast?_eq_none_iff.mp behind ▸ same)
    simp [empty] at ends
  | some j =>
    rw [← shardOf_eq shards] at same behind full absent
    refine displaced?_eq_some_order.mpr ⟨mt same.mem_iff.mp absent, ?_, behind⟩
    rwa [same.length_eq, capacity]

theorem order_remove (c : Cache κ ν) (k : κ) (s : Nat) :
    (c.remove k).order s = (c.order s).filter (· ≠ k) := by
  rw [order, shard_remove, order, List.filter_map]
  rfl

/-- A key that has a place gets another one in front, and no place has to give way. -/
theorem Tidy.order_insert (tidy : c.Tidy n) (there : k ∈ c.order (c.shardOf k)) (v : ν) (s : Nat) :
    (c.insert k v).order s = if c.shardOf k = s then k :: (c.order s).filter (· ≠ k) else c.order s := by
  have placed : (c.insert k v).order s =
      ((c.put ⟨k, c.nextSlot, some v⟩).shard s).map Place.key := rfl
  rw [placed, shard_put]
  by_cases own : c.shardOf k = s
  · subst own
    obtain ⟨p, hp, key⟩ := List.mem_map.mp there
    have fewer : ((c.shard (c.shardOf k)).filter (·.key ≠ k)).length < (c.shard (c.shardOf k)).length :=
      List.length_filter_lt_length_iff_exists.mpr ⟨p, hp, by simp [key]⟩
    rw [if_pos rfl, if_pos rfl, List.take_of_length_le, List.map_cons, order, List.filter_map]
    · rfl
    · rw [tidy.capacity]
      exact fewer.trans_le (tidy.bounded _)
  · rw [if_neg (Ne.symm own), if_neg own]
    rfl

end Cache

end WideColumn
