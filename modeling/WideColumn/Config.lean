import WideColumn.Catalog.Basic

/-!
Settings of an engine. Times are in milliseconds.
-/
namespace WideColumn

structure Config where
  defaultKeyspace : Option String := none
  metadataExpiry : Nat := 96000
  invalidationInterval : Nat := 1600
  tableCapacity : Nat := 150
  typeCapacity : Nat := 100
  statementCapacity : Nat := 150
  defaultConsistency : Option Consistency := none
  defaultSerialConsistency : Option Consistency := none
  defaultFetchSize : Option Nat := none
  deriving DecidableEq, Inhabited

namespace Config

def forKeyspace (keyspace : String) : Config := { defaultKeyspace := some keyspace }

def development : Config :=
  { metadataExpiry := 5000, invalidationInterval := 100, defaultConsistency := some .one }

/-- A usable keyspace name is not empty and has no dot. -/
def keyspaceFault (name : String) : Option Misconfiguration :=
  if name = "" ∨ '.' ∈ name.toList then some (.keyspace name) else none

/-- The first thing wrong with the settings. -/
def fault? (c : Config) : Option Misconfiguration :=
  if c.metadataExpiry = 0 then some .zeroExpiry
  else if c.tableCapacity = 0 ∨ c.typeCapacity = 0 ∨ c.statementCapacity = 0 then some .zeroCapacity
  else if c.defaultFetchSize = some 0 then some .zeroFetchSize
  else match c.defaultSerialConsistency.filter fun level => !level.isSerial with
    | some level => some (.notSerial level)
    | none => c.defaultKeyspace.bind keyspaceFault

def validate (c : Config) : Except Error Unit :=
  match c.fault? with
  | some cause => .error (.invalidConfig cause)
  | none => .ok ()

def catalog (c : Config) : Catalog where
  expiry := c.metadataExpiry
  tables := .ofCapacity c.tableCapacity
  types := .ofCapacity c.typeCapacity
  limiter := { interval := c.invalidationInterval }

end Config
end WideColumn
