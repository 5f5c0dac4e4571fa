import WideColumn.Cache.Hash

/-!
A bounded map from keys to values that are loaded on demand. The keys are spread over shards, and of a
shard the least recently used place gives way to a new one; a place may stand empty, waiting for its value.
-/
namespace WideColumn

/-- Of the elements that satisfy the condition only the first `n`, and all others. -/
def keepFirst {α : Type u} (own : α → Bool) : Nat → List α → List α
  | _, [] => []
  | 0, a :: rest => if own a then keepFirst own 0 rest else a :: keepFirst own 0 rest
  | n + 1, a :: rest => if own a then a :: keepFirst own n rest else a :: keepFirst own (n + 1) rest

structure Place (κ : Type u) (ν : Type v) where
  key : κ
  /-- Tells the place from every other place the cache ever had. -/
  slot : Nat
  value : Option ν
  deriving DecidableEq

structure Cache (κ : Type u) (ν : Type v) where
  shards : Nat
  /-- How many places a shard has room for. -/
  capacity : Nat
  shards_pos : 0 < shards
  capacity_pos : 0 < capacity
  /-- Those of all shards, most recently used first. -/
  places : List (Place κ ν) := []
  nextSlot : Nat := 0
  deriving DecidableEq

namespace Cache

variable {κ : Type u} {ν : Type v}

def maxShards : Nat := 8

/-- There are no more shards than can have so many places each. -/
def minPlaces : Nat := 16

def shardCount (n : Nat) : Nat := min (max (n / minPlaces) 1) maxShards

/-- The room is divided among the shards and rounded up, so that a cache of many places may have a few more
than it was given room for. There is room for one at least. -/
def shardCapacity (n : Nat) : Nat := max ((n + shardCount n - 1) / shardCount n) 1

theorem shardCount_pos (n : Nat) : 0 < shardCount n := by
  rw [shardCount, maxShards]
  omega

theorem shardCapacity_pos (n : Nat) : 0 < shardCapacity n := by
  rw [shardCapacity]
  omega

def ofCapacity (n : Nat) : Cache κ ν where
  shards := shardCount n
  capacity := shardCapacity n
  shards_pos := shardCount_pos n
  capacity_pos := shardCapacity_pos n

variable [DecidableEq κ] [Hashed κ]

/-- The shard that a key belongs to. -/
def shardOf (c : Cache κ ν) (k : κ) : Nat := (Hashed.hash k).toNat % c.shards

/-- The places of a shard, most recently used first. -/
def shard (c : Cache κ ν) (s : Nat) : List (Place κ ν) := c.places.filter fun p => c.shardOf p.key = s

def find? (c : Cache κ ν) (k : κ) : Option (Place κ ν) := c.places.find? (·.key = k)

/-- Puts a place in front, in place of one with its key, and drops what then exceeds the room in its shard. -/
def put (c : Cache κ ν) (p : Place κ ν) : Cache κ ν :=
  { c with
    places := keepFirst (fun q => c.shardOf q.key = c.shardOf p.key) c.capacity
      (p :: c.places.filter (·.key ≠ p.key)) }

/-- The place of a key, made if there is none; either way it is the most recently used one now. -/
def acquire (c : Cache κ ν) (k : κ) : Place κ ν × Cache κ ν :=
  match c.find? k with
  | some p => (p, c.put p)
  | none =>
    let p : Place κ ν := ⟨k, c.nextSlot, none⟩
    (p, { c.put p with nextSlot := c.nextSlot + 1 })

/-- The value of a key, whose place is the most recently used one now. -/
def get (c : Cache κ ν) (k : κ) : Option ν × Cache κ ν :=
  match c.find? k with
  | some p => (p.value, c.put p)
  | none => (none, c)

/-- Fills a place, if it is still there. -/
def settle (c : Cache κ ν) (slot : Nat) (v : ν) : Cache κ ν :=
  { c with places := c.places.map fun p => if p.slot = slot then { p with value := some v } else p }

/-- A new place that holds its value from the start. -/
def insert (c : Cache κ ν) (k : κ) (v : ν) : Cache κ ν :=
  { c.put ⟨k, c.nextSlot, some v⟩ with nextSlot := c.nextSlot + 1 }

def remove (c : Cache κ ν) (k : κ) : Cache κ ν :=
  { c with places := c.places.filter (·.key ≠ k) }

def clear (c : Cache κ ν) : Cache κ ν := { c with places := [] }

/-- The keys that have a value, shard by shard, most recently used first. -/
def loaded (c : Cache κ ν) : List (κ × ν) :=
  (List.range c.shards).flatMap fun s => (c.shard s).filterMap fun p => p.value.map (p.key, ·)

def size (c : Cache κ ν) : Nat := c.loaded.length

end Cache
end WideColumn
