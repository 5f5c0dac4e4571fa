import WideColumn.Document.Basic
import WideColumn.Schema.Table

/-!
Column types, tables and user-defined types as documents.
-/
namespace WideColumn

namespace ColumnType

def caseNames : List (String × ColumnType) :=
  [("Ascii", ascii), ("Text", text), ("Int", int), ("BigInt", bigint), ("Counter", counter),
    ("Boolean", boolean), ("Float", float), ("Double", double), ("Blob", blob),
    ("Timestamp", timestamp), ("Uuid", uuid), ("TimeUuid", timeuuid)]

def toDocument : ColumnType → Document
  | list e => .tagged "List" e.toDocument
  | set e => .tagged "Set" e.toDocument
  | map k v => .tagged "Map" (.list [k.toDocument, v.toDocument])
  | udt name => .tagged "Udt" (.text name)
  | scalar => .ofCase caseNames scalar

def ofDocument? : Document → Option ColumnType
  | .fields [("List", d)] => (ofDocument? d).map list
  | .fields [("Set", d)] => (ofDocument? d).map set
  | .fields [("Map", .list [k, v])] => do return map (← ofDocument? k) (← ofDocument? v)
  | .fields [("Udt", .text name)] => some (udt name)
  | d => d.caseOf? caseNames

end ColumnType

namespace TableId

def toDocument (t : TableId) : Document :=
  .fields [("keyspace", .text t.keyspace), ("table", .text t.table)]

def ofDocument? (d : Document) : Option TableId := do
  match ← d.members? ["keyspace", "table"] with
  | [some keyspace, some table] => return ⟨← keyspace.text?, ← table.text?⟩
  | _ => none

end TableId

def ColumnKind.caseNames : List (String × ColumnKind) :=
  [("PartitionKey", partitionKey), ("Clustering", clustering), ("Regular", regular),
    ("Static", static)]

namespace Column

def toDocument (c : Column) : Document :=
  .fields [("name", .text c.name), ("column_type", c.type.toDocument),
    ("kind", .ofCase ColumnKind.caseNames c.kind)]

def ofDocument? (d : Document) : Option Column := do
  match ← d.members? ["name", "column_type", "kind"] with
  | [some name, some type, some kind] =>
    return ⟨← name.text?, ← ColumnType.ofDocument? type, ← kind.caseOf? ColumnKind.caseNames⟩
  | _ => none

end Column

namespace Table

def toDocument (t : Table) : Document :=
  .fields [("identity", t.id.toDocument), ("columns", .ofList Column.toDocument t.columns)]

/-- All fields are needed; others are passed over. -/
def ofDocument? (d : Document) : Option Table := do
  match ← d.members? ["identity", "columns"] with
  | [some id, some columns] =>
    return ⟨← TableId.ofDocument? id, ← columns.list? Column.ofDocument?⟩
  | _ => none

end Table

def UserType.toDocument (t : UserType) : Document :=
  .fields [("keyspace", .text t.name.keyspace), ("name", .text t.name.name),
    ("fields", .ofList (.ofPair .text ColumnType.toDocument) t.fields)]

end WideColumn
