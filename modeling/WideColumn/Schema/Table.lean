import WideColumn.Schema.ColumnType

/-!
Tables and user-defined types as the store describes them.
-/
namespace WideColumn

structure TableId where
  keyspace : String
  table : String
  deriving DecidableEq, Inhabited

namespace TableId

def display (t : TableId) : String := t.keyspace ++ "." ++ t.table

/-- The name in statement text, both parts quoted where needed. -/
def cql (t : TableId) : List Char :=
  Identifier.quote t.keyspace ++ '.' :: Identifier.quote t.table

end TableId

inductive ColumnKind
  | partitionKey | clustering | regular | static
  deriving DecidableEq, Inhabited

structure Column where
  name : String
  type : ColumnType
  kind : ColumnKind
  deriving DecidableEq, Inhabited

def Column.isPrimaryKey (c : Column) : Bool :=
  c.kind = .partitionKey || c.kind = .clustering

structure Table where
  id : TableId
  columns : List Column
  deriving DecidableEq, Inhabited

def Table.primaryKey (t : Table) : List Column := t.columns.filter Column.isPrimaryKey

structure TypeName where
  keyspace : String
  name : String
  deriving DecidableEq, Inhabited

structure UserType where
  name : TypeName
  fields : List (String × ColumnType)
  deriving DecidableEq, Inhabited

/-- The first field of that name. -/
def UserType.fieldType? (t : UserType) (field : String) : Option ColumnType :=
  t.fields.lookup field

end WideColumn
