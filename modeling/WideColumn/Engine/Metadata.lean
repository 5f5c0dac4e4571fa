import WideColumn.Engine.World
import WideColumn.Plan.Binder

/-!
Metadata on demand: tables and user-defined types from the cache or the store, and their
invalidation.
-/
namespace WideColumn

variable {σ : Type} [Store σ]

namespace Op

/-- The store's answer about a table, as an entry loaded now. -/
def tableEntry (id : TableId) (answer : Except Fault (Option Table)) : Op σ TableEntry := do
  match ← orFault answer with
  | some table => return ⟨table, ← now⟩
  | none => throw (.tableNotFound id.display)

def knownType (name : TypeName) (answer : Except Fault (Option UserType)) : Op σ UserType := do
  match ← orFault answer with
  | some type => return type
  | none => throw (.typeNotFound name.keyspace name.name)

/-- An entry past its expiry is served and starts a refresh. -/
def serve (entry : TableEntry) : Op σ TableEntry := do
  let w ← get
  if entry.isExpired w.clock w.catalog.expiry then
    set { w with catalog := w.catalog.startRefresh true }
  return entry

def getColumns (id : TableId) : Op σ TableEntry := do
  serve (← getOrLoad .tables id do
    tableEntry id (← ask (Store.describeTable id) (.describeTable id)))

def getType (name : TypeName) : Op σ UserType :=
  getOrLoad .types name do
    knownType name (← ask (Store.describeType name) (.describeType name))

/-- Takes names from the end up to one that is not resolved yet. -/
def popUnresolved (resolved : TypeDefs) (pending : List String) : Option (String × List String) :=
  match pending.reverse.dropWhile fun name => (resolved.lookup name).isSome with
  | [] => none
  | name :: rest => some (name, rest.reverse)

def addFieldNames (type : UserType) (pending : List String) : List String :=
  type.fields.foldl (fun names field => field.2.addNames names) pending

def resolveFrom (keyspace : String) : Nat → List String → TypeDefs → Op σ TypeDefs
  | 0, _, resolved => return resolved
  | bound + 1, pending, resolved =>
    match popUnresolved resolved pending with
    | none => return resolved
    | some (name, rest) => do
      let type ← getType ⟨keyspace, name⟩
      resolveFrom keyspace bound (addFieldNames type rest) ((name, type) :: resolved)

/-- Every user-defined type reachable from the types, through fields of user-defined types too. No
more can be found than are cached or known to the store. -/
def resolveTypes (keyspace : String) (types : List ColumnType) : Op σ TypeDefs := do
  let w ← get
  let bound := w.catalog.types.places.length + Store.typeCount w.store + 1
  resolveFrom keyspace bound (types.foldl (fun names type => type.addNames names) []) []

/-- All that is needed to check values against the columns of a table. -/
def binder (id : TableId) : Op σ Binder := do
  let entry ← getColumns id
  let types ← resolveTypes id.keyspace (entry.table.columns.map Column.type)
  return ⟨entry, types⟩

/-- Drops all metadata unless that happened too recently; tells whether it did. -/
def invalidateMetadata : Op σ Bool := do
  let w ← get
  let (dropped, catalog) := w.catalog.invalidate w.clock
  set { w with catalog }
  if dropped then log .metadataDropped
  return dropped

def invalidateStatements : Op σ Unit := do
  modify fun w => { w with statements := w.statements.clear }
  log .statementsDropped

end Op
end WideColumn
