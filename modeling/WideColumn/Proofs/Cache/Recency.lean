import Mathlib.Data.Finset.Card
import WideColumn.Proofs.Cache.Shards
import WideColumn.Proofs.Engine.Run

/-!
What a bounded cache retains. The places of a shard stand in the order of their last use, so a key with a
value is pushed out only after as many others of its shard have been used as there is room for.
-/
namespace WideColumn.Cache

variable {κ ν ε : Type}

section Uses

variable [DecidableEq κ] [Hashed κ]

/-- Looks a key up. If it has no value, one is loaded, with this outcome. -/
def load (c : Cache κ ν) (k : κ) (outcome : Except ε ν) : Except ε ν × Cache κ ν :=
  match (c.acquire k).1.value, outcome with
  | some v, _ => (.ok v, (c.acquire k).2)
  | none, .ok v => (.ok v, (c.acquire k).2.settle (c.acquire k).1.slot v)
  | none, .error e => (.error e, (c.acquire k).2)

theorem load_cases (c : Cache κ ν) (k : κ) (outcome : Except ε ν) :
    (∃ v, (c.acquire k).1.value = some v ∧ c.load k outcome = (.ok v, (c.acquire k).2)) ∨
      (c.acquire k).1.value = none ∧
        ((∃ v, outcome = .ok v ∧
            c.load k outcome = (.ok v, (c.acquire k).2.settle (c.acquire k).1.slot v)) ∨
          ∃ e, outcome = .error e ∧ c.load k outcome = (.error e, (c.acquire k).2)) := by
  cases value : (c.acquire k).1.value with
  | some v => exact .inl ⟨v, rfl, by simp [load, value]⟩
  | none =>
    cases outcome with
    | ok v => exact .inr ⟨rfl, .inl ⟨v, rfl, by simp [load, value]⟩⟩
    | error e => exact .inr ⟨rfl, .inr ⟨e, rfl, by simp [load, value]⟩⟩

/-- What is put into a cache stands in front in its shard. -/
theorem put_front (c : Cache κ ν) (p : Place κ ν) :
    ∃ rest, (c.put p).shard (c.shardOf p.key) = p :: rest := by
  obtain ⟨m, hm⟩ := Nat.exists_eq_add_one.mpr c.capacity_pos
  rw [shard_put, if_pos rfl, hm]
  exact ⟨_, rfl⟩

/-- The place acquired for a key stands in front. -/
theorem acquire_front (c : Cache κ ν) (k : κ) :
    (∃ rest, (c.acquire k).2.shard (c.shardOf k) = (c.acquire k).1 :: rest) ∧
      (c.acquire k).1.key = k := by
  obtain ⟨p, -, rfl, acquired⟩ | ⟨-, acquired⟩ := c.acquire_cases k <;> rw [acquired]
  · exact ⟨c.put_front p, rfl⟩
  · exact ⟨c.put_front ⟨k, c.nextSlot, none⟩, rfl⟩

/-- One use of a cache. A load comes with the outcome it has if it is run. -/
inductive Use (ε κ ν : Type)
  | get (k : κ)
  | load (k : κ) (outcome : Except ε ν)
  | insert (k : κ) (v : ν)
  | remove (k : κ)
  | clear

/-- The key whose place may be the most recently used one then. -/
def Use.key? : Use ε κ ν → Option κ
  | .get k => some k
  | .load k _ => some k
  | .insert k _ => some k
  | .remove _ => none
  | .clear => none

/-- Whether the value of a key is given up, for a new one or for none. -/
def Use.Forgets (k : κ) : Use ε κ ν → Prop
  | .get _ => False
  | .load _ _ => False
  | .insert j _ => j = k
  | .remove j => j = k
  | .clear => True

def use (c : Cache κ ν) : Use ε κ ν → Cache κ ν
  | .get k => (c.get k).2
  | .load k outcome => (c.load k outcome).2
  | .insert k v => c.insert k v
  | .remove k => c.remove k
  | .clear => c.clear

/-- The cache after all of that, in order. -/
def after (c : Cache κ ν) (us : List (Use ε κ ν)) : Cache κ ν := us.foldl use c

/-- The key is inserted with this value, or loaded with it, or served with it. -/
inductive Gives (c : Cache κ ν) (k : κ) (v : ν) : Use ε κ ν → Prop
  | get : (c.get k).1 = some v → Gives c k v (.get k)
  | load {outcome : Except ε ν} : (c.load k outcome).1 = .ok v → Gives c k v (.load k outcome)
  | insert : Gives c k v (.insert k v)

/-- A value got by an engine is one got from its cache, if loading leaves the cache alone. -/
theorem run_getOrLoad {σ : Type} {shelf : Shelf σ κ ν} {k : κ} {load : Op σ ν} {w u : World σ}
    {outcome : Except Error ν} (lawful : ∀ c w, shelf.get (shelf.set c w) = c)
    (ran : load.run (shelf.set ((shelf.get w).acquire k).2 w) = (outcome, u))
    (alone : shelf.get u = ((shelf.get w).acquire k).2) :
    ((Op.getOrLoad shelf k load).run w).1 = ((shelf.get w).load k outcome).1 ∧
      shelf.get ((Op.getOrLoad shelf k load).run w).2 = ((shelf.get w).load k outcome).2 := by
  have got := Op.got shelf k load w
  generalize (Op.getOrLoad shelf k load).run w = r at got ⊢
  cases got with
  | found value => simp [Cache.load, value, lawful]
  | failed value failed =>
    cases ran.symm.trans failed
    simp [Cache.load, value, alone]
  | loaded value loaded =>
    cases ran.symm.trans loaded
    simp [Cache.load, value, alone, lawful]

end Uses

/-- No shard has more places than there is room for, and no key has two. -/
structure Tidy [Hashed κ] (n : Nat) (c : Cache κ ν) : Prop where
  shards : c.shards = shardCount n
  capacity : c.capacity = shardCapacity n
  bounded : ∀ s, (c.shard s).length ≤ shardCapacity n
  keys : (c.places.map Place.key).Nodup
  sound : c.Sound

section Keys

variable [DecidableEq κ] {places : List (Place κ ν)}

/-- The keys stay apart when one of them is put in front. -/
theorem nodup_keys_cons (h : (places.map Place.key).Nodup) (p : Place κ ν) :
    ((p :: places.filter (·.key ≠ p.key)).map Place.key).Nodup := by
  rw [List.map_cons, List.nodup_cons]
  refine ⟨fun mem => ?_, h.sublist (List.filter_sublist.map _)⟩
  obtain ⟨q, hq, same⟩ := List.mem_map.mp mem
  simpa [same] using (List.mem_filter.mp hq).2

theorem length_le_card {keys : Finset κ} (distinct : (places.map Place.key).Nodup)
    (among : ∀ p ∈ places, p.key ∈ keys) : places.length ≤ keys.card := by
  rw [← List.length_map Place.key, ← List.toFinset_card_of_nodup distinct]
  refine Finset.card_le_card fun k hk => ?_
  obtain ⟨p, hp, rfl⟩ := List.mem_map.mp (List.mem_toFinset.mp hk)
  exact among p hp

end Keys

namespace Tidy

variable [Hashed κ] {n : Nat} {c : Cache κ ν} {k : κ} {v : ν}

theorem ofCapacity (n : Nat) : (ofCapacity n : Cache κ ν).Tidy n where
  shards := rfl
  capacity := rfl
  bounded _ := Nat.zero_le _
  keys := List.nodup_nil
  sound := .of_empty rfl

/-- The places of a shard have different keys. -/
theorem shard_keys (h : c.Tidy n) (s : Nat) : ((c.shard s).map Place.key).Nodup :=
  h.keys.sublist ((c.shard_sublist s).map _)

theorem length_places (h : c.Tidy n) : c.places.length ≤ shardCount n * shardCapacity n :=
  h.shards ▸ length_places_le h.bounded

theorem settle (h : c.Tidy n) (slot : Nat) (v : ν) : (c.settle slot v).Tidy n where
  shards := h.shards
  capacity := h.capacity
  bounded s := by
    rw [shard_settle, List.length_map]
    exact h.bounded s
  keys := by
    have keys : (c.settle slot v).places.map Place.key = c.places.map Place.key := by
      rw [Cache.settle, List.map_map]
      refine List.map_congr_left fun p _ => ?_
      by_cases hs : p.slot = slot <;> simp [hs]
    exact keys ▸ h.keys
  sound := h.sound.settle fun _ _ _ => trivial

/-- Places may be lost. -/
theorem of_sublist {d : Cache κ ν} (h : c.Tidy n) (places : d.places.Sublist c.places)
    (shards : d.shards = c.shards) (capacity : d.capacity = c.capacity)
    (nextSlot : d.nextSlot = c.nextSlot) : d.Tidy n where
  shards := shards.trans h.shards
  capacity := capacity.trans h.capacity
  bounded s := (shard_mono places shards s).length_le.trans (h.bounded s)
  keys := h.keys.sublist (places.map _)
  sound := h.sound.of_subset places.subset nextSlot

variable [DecidableEq κ]

private theorem of_put {p : Place κ ν} {next : Nat} (h : c.Tidy n)
    (sound : Sound { c.put p with nextSlot := next }) : Tidy n { c.put p with nextSlot := next } where
  shards := h.shards
  capacity := h.capacity
  bounded s := by
    show ((c.put p).shard s).length ≤ _
    rw [shard_put]
    split
    · exact (List.length_take_le _ _).trans_eq h.capacity
    · exact h.bounded s
  keys := (nodup_keys_cons h.keys p).sublist ((keepFirst_sublist _ _ _).map _)
  sound := sound

theorem put (h : c.Tidy n) {p : Place κ ν} (hp : p ∈ c.places) : (c.put p).Tidy n :=
  h.of_put (h.sound.put hp)

theorem acquire (h : c.Tidy n) (k : κ) : (c.acquire k).2.Tidy n := by
  obtain ⟨p, hp, -, acquired⟩ | ⟨-, acquired⟩ := c.acquire_cases k <;> rw [acquired]
  · exact h.put hp
  · exact h.of_put (h.sound.add nofun)

theorem insert (h : c.Tidy n) (k : κ) (v : ν) : (c.insert k v).Tidy n :=
  h.of_put (h.sound.insert trivial)

theorem use (h : c.Tidy n) (u : Use ε κ ν) : (c.use u).Tidy n := by
  cases u with
  | get k =>
    rw [Cache.use, Cache.get]
    cases hp : c.find? k with
    | none => exact h
    | some p => exact h.put (Holds.find?_some hp).1
  | load k outcome =>
    rw [Cache.use]
    obtain ⟨v, -, loaded⟩ | ⟨-, ⟨v, -, loaded⟩ | ⟨e, -, loaded⟩⟩ := c.load_cases k outcome <;>
      rw [loaded]
    · exact h.acquire k
    · exact (h.acquire k).settle _ v
    · exact h.acquire k
  | insert k v => exact h.insert k v
  | remove k => exact h.of_sublist List.filter_sublist rfl rfl rfl
  | clear => exact h.of_sublist (List.nil_sublist _) rfl rfl rfl

theorem after (h : c.Tidy n) (us : List (Use ε κ ν)) : (c.after us).Tidy n := by
  induction us generalizing c with
  | nil => exact h
  | cons u us ih => exact ih (h.use u)

/-- A key has a value if the one place of that key has. -/
theorem get_eq_some (h : c.Tidy n) :
    (c.get k).1 = some v ↔ ∃ p ∈ c.places, p.key = k ∧ p.value = some v := by
  rw [Cache.get]
  cases hp : c.find? k with
  | none =>
    have absent : ∀ p ∈ c.places, p.key ≠ k := by simpa [find?] using hp
    simpa using fun p hp key => absurd key (absent p hp)
  | some p =>
    obtain ⟨mem, key⟩ := Holds.find?_some hp
    constructor
    · exact fun value => ⟨p, mem, key, value⟩
    · rintro ⟨q, hq, key', value⟩
      exact List.inj_on_of_nodup_map h.keys hq mem (key'.trans key.symm) ▸ value

/-- The values are listed with their keys, and no key is listed twice. -/
theorem loaded_spec (h : c.Tidy n) : (c.loaded.map Prod.fst).Nodup ∧
    ∀ {k v}, (k, v) ∈ c.loaded ↔ (c.get k).1 = some v := by
  have listed := c.loaded_perm
  constructor
  · have keys := List.pairwise_map.mp h.keys
    refine (listed.map Prod.fst).nodup_iff.mpr
      (List.pairwise_map.mpr (List.pairwise_filterMap.mpr (keys.imp fun {p q} ne => ?_)))
    rintro _ hp _ hq
    obtain ⟨_, -, rfl⟩ := Option.map_eq_some_iff.mp hp
    obtain ⟨_, -, rfl⟩ := Option.map_eq_some_iff.mp hq
    exact ne
  · intro k v
    rw [listed.mem_iff, List.mem_filterMap, h.get_eq_some]
    constructor
    · rintro ⟨p, hp, value⟩
      obtain ⟨_, hv, same⟩ := Option.map_eq_some_iff.mp value
      obtain ⟨rfl, rfl⟩ := Prod.mk.inj same
      exact ⟨p, hp, rfl, hv⟩
    · rintro ⟨p, hp, rfl, hv⟩
      exact ⟨p, hp, by rw [hv]; rfl⟩

/-- The size is the number of keys that have a value. -/
theorem size_eq (h : c.Tidy n) :
    ∃ keys : Finset κ, c.size = keys.card ∧ ∀ k, k ∈ keys ↔ ∃ v, (c.get k).1 = some v := by
  obtain ⟨apart, listed⟩ := h.loaded_spec
  refine ⟨(c.loaded.map Prod.fst).toFinset, ?_, fun k => ?_⟩
  · rw [List.toFinset_card_of_nodup apart, List.length_map, size]
  · simp only [List.mem_toFinset, List.mem_map, Prod.exists, listed, exists_and_right, exists_eq_right]

end Tidy

/-- The key has the value, and what has been used in its shard since is among these others. -/
def Retains [Hashed κ] (c : Cache κ ν) (others : Finset κ) (k : κ) (v : ν) : Prop :=
  ∃ front slot back, c.shard (c.shardOf k) = front ++ ⟨k, slot, some v⟩ :: back ∧
    ∀ p ∈ front, p.key ∈ others

namespace Retains

variable [Hashed κ] {n : Nat} {c : Cache κ ν} {others : Finset κ} {k : κ} {v : ν}

theorem of_front {slot : Nat} {rest : List (Place κ ν)}
    (h : c.shard (c.shardOf k) = ⟨k, slot, some v⟩ :: rest) : c.Retains others k v :=
  ⟨[], slot, rest, h, nofun⟩

/-- Filling the place of another key does nothing to it. -/
theorem settle (h : c.Retains others k v) {slot : Nat} {x : ν}
    (other : ∀ p ∈ c.places, p.slot = slot → p.key ≠ k) : (c.settle slot x).Retains others k v := by
  obtain ⟨front, own, back, places, used⟩ := h
  have there : (⟨k, own, some v⟩ : Place κ ν) ∈ c.shard (c.shardOf k) := by simp [places]
  have ne : own ≠ slot := fun same => other _ ((c.shard_sublist _).subset there) same rfl
  have filled := shard_settle c slot x (c.shardOf k)
  rw [places, List.map_append, List.map_cons, if_neg ne] at filled
  refine ⟨_, own, _, filled, fun q hq => ?_⟩
  obtain ⟨p, hp, rfl⟩ := List.mem_map.mp hq
  by_cases hs : p.slot = slot <;> simpa [hs] using used p hp

variable [DecidableEq κ]

theorem find? (h : c.Retains others k v) (hk : k ∉ others) :
    ∃ slot, c.find? k = some ⟨k, slot, some v⟩ := by
  obtain ⟨front, slot, back, places, used⟩ := h
  have absent : front.find? (·.key = k) = none := by
    refine List.find?_eq_none.mpr fun p hp key => hk ?_
    exact of_decide_eq_true key ▸ used p hp
  exact ⟨slot, by rw [← find?_shard, places]; simp [absent]⟩

/-- A place with the value is in front once its key has been looked up. -/
theorem of_acquired (value : (c.acquire k).1.value = some v) :
    (c.acquire k).2.Retains others k v := by
  obtain ⟨⟨rest, front⟩, key⟩ := c.acquire_front k
  have place : (c.acquire k).1 = ⟨k, (c.acquire k).1.slot, some v⟩ := by
    rcases h : (c.acquire k).1 with ⟨j, slot, value⟩
    simp_all
  rw [place] at front
  exact of_front (shardOf_eq (shards_acquire c k) ▸ front)

/-- A place of another key pushes it back, but not out while there is room for all the others. -/
theorem put_other (h : c.Retains others k v) (tidy : c.Tidy n) (room : others.card < shardCapacity n)
    {p : Place κ ν} (hp : c.shardOf p.key = c.shardOf k → p.key ∈ others) (ne : p.key ≠ k) (next : Nat) :
    Retains { c.put p with nextSlot := next } others k v := by
  obtain ⟨front, slot, back, places, used⟩ := h
  by_cases own : c.shardOf k = c.shardOf p.key
  case neg =>
    exact ⟨front, slot, back, (shard_put c p (c.shardOf k)).trans ((if_neg own).trans places), used⟩
  set ahead := p :: front.filter (·.key ≠ p.key) with hahead
  have used_ahead : ∀ q ∈ ahead, q.key ∈ others := by
    intro q hq
    obtain rfl | hq := List.mem_cons.mp hq
    · exact hp own.symm
    · exact used q (List.mem_filter.mp hq).1
  have keys : (front.map Place.key).Nodup := by
    have all := tidy.shard_keys (c.shardOf k)
    rw [places, List.map_append] at all
    exact all.of_append_left
  have few : ahead.length < c.capacity :=
    (length_le_card (nodup_keys_cons keys p) used_ahead).trans_lt (room.trans_eq tidy.capacity.symm)
  obtain ⟨m, hm⟩ := Nat.exists_eq_add_of_lt few
  refine ⟨ahead, slot, (back.filter (·.key ≠ p.key)).take m, ?_, used_ahead⟩
  have kept : p :: (c.shard (c.shardOf k)).filter (·.key ≠ p.key) =
      ahead ++ ⟨k, slot, some v⟩ :: back.filter (·.key ≠ p.key) := by
    simp [places, hahead, ne.symm]
  refine (shard_put c p (c.shardOf k)).trans ((if_pos own).trans ?_)
  rw [kept, hm, List.take_append, List.take_of_length_le (by omega),
    show ahead.length + m + 1 - ahead.length = m + 1 by omega, List.take_succ_cons]

theorem remove (h : c.Retains others k v) {j : κ} (ne : j ≠ k) : (c.remove j).Retains others k v := by
  obtain ⟨front, slot, back, places, used⟩ := h
  refine ⟨front.filter (·.key ≠ j), slot, back.filter (·.key ≠ j), ?_,
    fun p hp => used p (List.mem_filter.mp hp).1⟩
  refine (shard_remove c j (c.shardOf k)).trans ?_
  simp [places, ne.symm]

/-- The value is served without a load. -/
theorem get (h : c.Retains others k v) (hk : k ∉ others) : (c.get k).1 = some v := by
  obtain ⟨slot, found⟩ := h.find? hk
  rw [Cache.get, found]

theorem getOrLoad {σ : Type} (h : c.Retains others k v) (hk : k ∉ others) (shelf : Shelf σ κ ν)
    (load : Op σ ν) {w : World σ} (hw : shelf.get w = c) :
    (Op.getOrLoad shelf k load).run w = (.ok v, shelf.set (c.get k).2 w) := by
  obtain ⟨slot, found⟩ := h.find? hk
  subst hw
  have acquired : (shelf.get w).acquire k =
      (⟨k, slot, some v⟩, ((shelf.get w).get k).2) := by
    rw [Cache.acquire, Cache.get, found]
  rw [Op.getOrLoad, Op.run_bind_ok (Op.run_get w)]
  simp only [acquired]
  rw [Op.run_bind_ok (Op.run_set _ w)]
  rfl

theorem acquire (h : c.Retains others k v) (tidy : c.Tidy n) (room : others.card < shardCapacity n)
    (hk : k ∉ others) {j : κ} (hj : j ≠ k → c.shardOf j = c.shardOf k → j ∈ others) :
    (c.acquire j).2.Retains others k v := by
  by_cases same : j = k
  · obtain ⟨slot, found⟩ := h.find? hk
    rw [same]
    refine of_acquired ?_
    rw [Cache.acquire, found]
  · have mem := hj same
    obtain ⟨p, -, rfl, acquired⟩ | ⟨-, acquired⟩ := c.acquire_cases j <;> rw [acquired]
    · exact h.put_other tidy room mem same c.nextSlot
    · exact h.put_other tidy room mem same _

/-- Each use keeps it that does not give it up and is of one of the others, or of the key. -/
theorem use (h : c.Retains others k v) (tidy : c.Tidy n) (room : others.card < shardCapacity n)
    (hk : k ∉ others) {u : Use ε κ ν} (keeps : ¬ u.Forgets k)
    (hu : ∀ j ∈ u.key?, j ≠ k → c.shardOf j = c.shardOf k → j ∈ others) :
    (c.use u).Retains others k v := by
  cases u with
  | get j =>
    have looked := h.acquire tidy room hk (hu j rfl)
    rw [Cache.acquire] at looked
    rw [Cache.use, Cache.get]
    cases hp : c.find? j with
    | none => exact h
    | some p => rwa [hp] at looked
  | load j outcome =>
    have looked := h.acquire tidy room hk (hu j rfl)
    obtain ⟨-, -, slots⟩ := tidy.sound.acquire j
    rw [Cache.use]
    obtain ⟨x, -, loaded⟩ | ⟨empty, ⟨x, -, loaded⟩ | ⟨e, -, loaded⟩⟩ := c.load_cases j outcome <;>
      rw [loaded]
    · exact looked
    · refine looked.settle fun p hp same key => ?_
      -- The place of the key itself would not be empty.
      obtain ⟨slot, found⟩ := h.find? hk
      have : j = k := (slots p hp same).symm.trans key
      rw [this, Cache.acquire, found] at empty
      cases empty
    · exact looked
  | insert j x =>
    have ne : j ≠ k := keeps
    exact h.put_other tidy room (hu j rfl ne) ne _
  | remove j => exact h.remove keeps
  | clear => exact absurd trivial keeps

theorem after (h : c.Retains others k v) (tidy : c.Tidy n) (room : others.card < shardCapacity n)
    (hk : k ∉ others) {us : List (Use ε κ ν)} (keep : ∀ u ∈ us, ¬ u.Forgets k)
    (hus : ∀ j ∈ us.filterMap Use.key?, j ≠ k → c.shardOf j = c.shardOf k → j ∈ others) :
    (c.after us).Retains others k v := by
  induction us generalizing c with
  | nil => exact h
  | cons u us ih =>
    have kept := h.use tidy room hk (keep u List.mem_cons_self)
      fun j hj => hus j (List.mem_filterMap.mpr ⟨u, List.mem_cons_self, hj⟩)
    refine ih kept (tidy.use u) (fun u' hu' => keep u' (List.mem_cons_of_mem _ hu')) fun j hj => ?_
    rw [shardOf_eq ((tidy.use u).shards.trans tidy.shards.symm)]
    obtain ⟨u', hu', key⟩ := List.mem_filterMap.mp hj
    exact hus j (List.mem_filterMap.mpr ⟨u', List.mem_cons_of_mem _ hu', key⟩)

/-- It begins when a value is given. -/
theorem of_gives {u : Use ε κ ν} (gives : c.Gives k v u) :
    (c.use u).Retains others k v := by
  cases gives with
  | get served =>
    rw [Cache.get] at served
    rw [Cache.use, Cache.get]
    cases hp : c.find? k with
    | none => simp [hp] at served
    | some p =>
      rw [hp] at served
      have acquired : c.acquire k = (p, c.put p) := by rw [Cache.acquire, hp]
      have value : (c.acquire k).1.value = some v := acquired ▸ served
      simpa [acquired] using of_acquired value
  | @load outcome served =>
    rw [Cache.use]
    obtain ⟨x, value, loaded⟩ | ⟨-, ⟨x, -, loaded⟩ | ⟨e, -, loaded⟩⟩ := c.load_cases k outcome <;>
      rw [loaded] at served ⊢ <;> cases served
    · exact of_acquired value
    · obtain ⟨⟨rest, front⟩, key⟩ := c.acquire_front k
      have filled := shard_settle (c.acquire k).2 (c.acquire k).1.slot v (c.shardOf k)
      rw [front, List.map_cons, if_pos rfl, key] at filled
      refine of_front (.trans ?_ filled)
      exact congrArg _ (congrFun (shardOf_eq (shards_acquire c k)) k)
  | insert =>
    obtain ⟨rest, front⟩ := c.put_front ⟨k, c.nextSlot, some v⟩
    exact of_front front

end Retains

variable [DecidableEq κ] [Hashed κ]

/-- A cache for `n` places never has more of a shard than the shard has room for, and one at most for each
key; its size is the number of keys that have a value. Once it has given a key's value, it serves that value
without a load, whatever is done with it meanwhile: as long as fewer other keys of the shard are used than
it has room for, and the value is not given up. For fewer than 32 places there is one shard with all of the
room. -/
theorem serves_recently_used (n : Nat) (us : List (Use ε κ ν)) :
    let c := (ofCapacity n).after us
    (∀ s, (c.shard s).length ≤ shardCapacity n) ∧ c.places.length ≤ shardCount n * shardCapacity n ∧
      (0 < n → n < 32 → shardCapacity n = n ∧ c.places.length ≤ n) ∧
      (c.places.map Place.key).Nodup ∧
      (∃ keys : Finset κ, c.size = keys.card ∧ ∀ k, k ∈ keys ↔ ∃ v, (c.get k).1 = some v) ∧
      ∀ (u : Use ε κ ν) k v, c.Gives k v u → ∀ later : List (Use ε κ ν), (∀ u ∈ later, ¬ u.Forgets k) →
        (((later.filterMap Use.key?).toFinset.erase k).filter (c.shardOf · = c.shardOf k)).card <
          shardCapacity n →
        let d := (c.use u).after later
        (d.get k).1 = some v ∧
          ∀ (σ : Type) (shelf : Shelf σ κ ν) (load : Op σ ν) (w : World σ), shelf.get w = d →
            (Op.getOrLoad shelf k load).run w = (.ok v, shelf.set (d.get k).2 w) := by
  intro c
  have tidy : c.Tidy n := (Tidy.ofCapacity n).after us
  refine ⟨tidy.bounded, tidy.length_places, fun room small => ?_, tidy.keys, tidy.size_eq,
    fun u k v gives later keep few => ?_⟩
  · have whole := tidy.length_places
    rw [shardCount_of_lt small, shardCapacity_of_lt room small, Nat.one_mul] at whole
    exact ⟨shardCapacity_of_lt room small, whole⟩
  intro d
  set others := ((later.filterMap Use.key?).toFinset.erase k).filter (c.shardOf · = c.shardOf k)
  have apart : k ∉ others := fun mem => Finset.notMem_erase k _ (Finset.mem_filter.mp mem).1
  have retains : d.Retains others k v := by
    refine (Retains.of_gives gives).after (tidy.use u) few apart keep fun j hj ne shard => ?_
    rw [shardOf_eq ((tidy.use u).shards.trans tidy.shards.symm)] at shard
    exact Finset.mem_filter.mpr ⟨Finset.mem_erase.mpr ⟨ne, List.mem_toFinset.mpr hj⟩, shard⟩
  exact ⟨retains.get apart, fun _ shelf load _ hw => retains.getOrLoad apart shelf load hw⟩

/-- Two other keys do not push the first one out of three places, though a load fails and a place is
emptied in between. -/
theorem served_beside_two_others :
    let before : List (Use String String Nat) := [.insert "a" 10, .load "b" (.error "refused")]
    let later : List (Use String String Nat) :=
      [.load "c" (.ok 30), .remove "b", .load "b" (.error "refused"), .get "a", .get "c"]
    let c := (ofCapacity 3).after before
    let d := (c.use (.get "a" : Use String String Nat)).after later
    c.Gives "a" 10 (.get "a" : Use String String Nat) ∧ (∀ u ∈ later, ¬ u.Forgets "a") ∧
      ((later.filterMap Use.key?).toFinset.erase "a").card < 3 ∧ (d.get "a").1 = some 10 := by
  intro before later c d
  have gives : c.Gives "a" 10 (.get "a" : Use String String Nat) := .get (by decide +kernel)
  have keep : ∀ u ∈ later, ¬ u.Forgets "a" := by simp [later, Use.Forgets]
  have few : ((later.filterMap Use.key?).toFinset.erase "a").card < 3 := by decide +kernel
  obtain ⟨-, -, -, -, -, serves⟩ := serves_recently_used 3 before
  have fewer := (Finset.card_filter_le _ (c.shardOf · = c.shardOf "a")).trans_lt few
  exact ⟨gives, keep, few, (serves _ "a" 10 gives later keep fewer).1⟩

-- With room for two, two others are too many, even if one of them could not be loaded.
example : (((ofCapacity 2 : Cache String Nat).after
    ([.insert "a" 10, .load "b" (.error ()), .insert "c" 30] : List (Use Unit String Nat))).get "a").1 =
      none := by
  decide +kernel

end WideColumn.Cache
