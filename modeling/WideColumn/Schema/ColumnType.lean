import WideColumn.Schema.Identifier

/-!
Declared types of columns and of fields of user-defined types, and their text.
-/
namespace WideColumn

inductive ColumnType
  | ascii | text | int | bigint | counter | boolean | float | double
  | blob | timestamp | uuid | timeuuid
  | list (element : ColumnType)
  | set (element : ColumnType)
  | map (key value : ColumnType)
  /-- A user-defined type of the keyspace that holds the table. -/
  | udt (name : String)
  deriving DecidableEq, Inhabited

namespace ColumnType

def isCounter : ColumnType → Bool
  | counter => true
  | _ => false

def isTextual : ColumnType → Bool
  | ascii | text => true
  | _ => false

/-- The types without parameters, by name. -/
def scalars : List (String × ColumnType) :=
  [("ascii", ascii), ("text", text), ("int", int), ("bigint", bigint), ("counter", counter),
    ("boolean", boolean), ("float", float), ("double", double), ("blob", blob),
    ("timestamp", timestamp), ("uuid", uuid), ("timeuuid", timeuuid)]

def render : ColumnType → List Char
  | ascii => "ascii".toList
  | text => "text".toList
  | int => "int".toList
  | bigint => "bigint".toList
  | counter => "counter".toList
  | boolean => "boolean".toList
  | float => "float".toList
  | double => "double".toList
  | blob => "blob".toList
  | timestamp => "timestamp".toList
  | uuid => "uuid".toList
  | timeuuid => "timeuuid".toList
  | list e => "list<".toList ++ e.render ++ ['>']
  | set e => "set<".toList ++ e.render ++ ['>']
  | map k v => "map<".toList ++ k.render ++ [',', ' '] ++ v.render ++ ['>']
  | udt name => "frozen<".toList ++ Identifier.quote name ++ ['>']

def toText (t : ColumnType) : String := String.ofList t.render

/-- Appends the user-defined types that the type names, each only if it is not there yet. -/
def addNames : ColumnType → List String → List String
  | list e, names => e.addNames names
  | set e, names => e.addNames names
  | map k v, names => v.addNames (k.addNames names)
  | udt name, names => if name ∈ names then names else names ++ [name]
  | _, names => names

def names (t : ColumnType) : List String := t.addNames []

end ColumnType
end WideColumn
