import WideColumn.Cache.Basic
import WideColumn.Catalog.Entry

/-!
Cached metadata of tables and user-defined types, and how often it may be dropped.
-/
namespace WideColumn

instance : Hashed TableId := ⟨fun id => Hashed.bytes id.keyspace ++ Hashed.bytes id.table⟩

instance : Hashed TypeName := ⟨fun name => Hashed.bytes name.keyspace ++ Hashed.bytes name.name⟩

/-- Lets through at most one request in each interval of time. -/
structure Limiter where
  interval : Nat
  last : Option Nat := none
  deriving DecidableEq, Inhabited

namespace Limiter

def admits (l : Limiter) (now : Nat) : Bool :=
  match l.last with
  | none => true
  | some last => l.interval ≤ now - last

def acquire (l : Limiter) (now : Nat) : Bool × Limiter :=
  if l.admits now then (true, { l with last := some now }) else (false, l)

/-- Which of the requests made at these times are let through. -/
def acquireAll (l : Limiter) : List Nat → List Bool
  | [] => []
  | now :: later => (l.acquire now).1 :: (l.acquire now).2.acquireAll later

end Limiter

structure Catalog where
  /-- Entries older than this are still served, but loaded anew in the background. -/
  expiry : Nat
  tables : Cache TableId TableEntry
  types : Cache TypeName UserType
  /-- Set while somebody is about to start a background refresh, and until that has ended. -/
  refreshing : Bool := false
  refreshesStarted : Nat := 0
  limiter : Limiter
  deriving DecidableEq

namespace Catalog

/-- Takes the flag for a refresh, if nobody has it. -/
def claim (c : Catalog) : Option Catalog :=
  if c.refreshing then none else some { c with refreshing := true }

/-- Gives the flag back. -/
def release (c : Catalog) : Catalog := { c with refreshing := false }

def countRefresh (c : Catalog) : Catalog := { c with refreshesStarted := c.refreshesStarted + 1 }

/-- Starts a refresh unless somebody has the flag. Where nothing drives a refresh, the flag is given back. -/
def startRefresh (c : Catalog) (driven : Bool) : Catalog :=
  match c.claim with
  | none => c
  | some held => if driven then held.countRefresh else held.release

/-- Drops everything, if the limiter lets it. -/
def invalidate (c : Catalog) (now : Nat) : Bool × Catalog :=
  let (admitted, limiter) := c.limiter.acquire now
  if admitted then (true, { c with limiter, tables := c.tables.clear, types := c.types.clear })
  else (false, { c with limiter })

/-- What a refresh has to look at, most recently used first. -/
def stale (c : Catalog) (now : Nat) : List TableId :=
  (c.tables.loaded.filter fun e => e.2.isExpired now c.expiry).map Prod.fst

/-- Stores what a refresh was told about a table: a description, that there is none, or a fault. -/
def refreshed (c : Catalog) (id : TableId) (now : Nat) : Except Fault (Option Table) → Catalog
  | .ok (some table) => { c with tables := c.tables.insert id ⟨table, now⟩ }
  | .ok none => { c with tables := c.tables.remove id }
  | .error _ => c

end Catalog
end WideColumn
