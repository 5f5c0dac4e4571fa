import WideColumn.Error

/-!
Column metadata of one table as of the time it was loaded, and the user-defined types reachable from
it.
-/
namespace WideColumn

structure TableEntry where
  table : Table
  loadedAt : Nat
  deriving DecidableEq, Inhabited

namespace TableEntry

def id (e : TableEntry) : TableId := e.table.id

/-- Of several columns with one name the last counts. -/
def column? (e : TableEntry) (name : String) : Option Column :=
  e.table.columns.reverse.find? (·.name = name)

def column (e : TableEntry) (name : String) : Except Error Column :=
  match e.column? name with
  | some c => .ok c
  | none => .error (.unknownColumn e.id.display name)

def isPrimaryKey (e : TableEntry) (name : String) : Bool :=
  (e.column? name).any Column.isPrimaryKey

/-- Older than `expiry`; the clock may have gone backwards since. -/
def isExpired (e : TableEntry) (now expiry : Nat) : Bool := expiry < now - e.loadedAt

end TableEntry

/-- Definitions of user-defined types by name. -/
abbrev TypeDefs := List (String × UserType)

end WideColumn
