import WideColumn.Cache.Basic

/-!
Many callers of one cache. Callers that miss the same place share one load; when it fails, the caller
that waited longest may load next.
-/
namespace WideColumn

/-- The callers at a place without a value. -/
structure Flight where
  slot : Nat
  /-- The caller whose turn it is to load. -/
  loader : Nat
  /-- Whether the loader has begun. -/
  running : Bool
  /-- In order of arrival. -/
  waiting : List Nat
  deriving DecidableEq

structure Traffic (κ : Type u) (ν : Type v) where
  cache : Cache κ ν
  flights : List Flight := []

namespace Traffic

variable {κ : Type u} {ν : Type v} [DecidableEq κ] [Hashed κ]

/-- What a caller meets when it looks a key up. -/
inductive Arrival (ν : Type v)
  | served (value : ν)
  | loads (slot : Nat)
  | waits (slot : Nat)

def replace (flights : List Flight) (f : Flight) : List Flight :=
  flights.map fun g => if g.slot = f.slot then f else g

/-- A caller looks a key up: it is served, becomes the loader of the place, or waits there. -/
def lookUp (t : Traffic κ ν) (caller : Nat) (k : κ) : Arrival ν × Traffic κ ν :=
  let (p, cache) := t.cache.acquire k
  match p.value with
  | some v => (.served v, { t with cache })
  | none =>
    match t.flights.find? (·.slot = p.slot) with
    | some f =>
      (.waits p.slot,
        { cache, flights := replace t.flights { f with waiting := f.waiting ++ [caller] } })
    | none =>
      (.loads p.slot, { cache, flights := t.flights ++ [⟨p.slot, caller, false, []⟩] })

/-- The caller whose turn it is at a place starts its load. -/
def begin (t : Traffic κ ν) (slot : Nat) : Traffic κ ν :=
  { t with flights := t.flights.map fun f => if f.slot = slot then { f with running := true } else f }

/-- A load ends well: the place is filled and all who were there are served. -/
def succeed (t : Traffic κ ν) (slot : Nat) (v : ν) : List Nat × Traffic κ ν :=
  ((t.flights.filter (·.slot = slot)).flatMap fun f => f.loader :: f.waiting,
    { cache := t.cache.settle slot v, flights := t.flights.filter (·.slot ≠ slot) })

/-- After a failed load the next in line, if any, becomes the loader. -/
def Flight.handOver (f : Flight) : Option Flight :=
  match f.waiting with
  | [] => none
  | next :: rest => some ⟨f.slot, next, false, rest⟩

/-- A load fails: only its loader is told, and the turn passes on. -/
def fail (t : Traffic κ ν) (slot : Nat) : Traffic κ ν :=
  { t with flights := t.flights.filterMap fun f => if f.slot = slot then Flight.handOver f else some f }

end Traffic
end WideColumn
