import WideColumn.Number.Binary
import WideColumn.Value.Uuid

/-!
Values as callers give them, before they are checked against a column's declared type.
-/
namespace WideColumn

abbrev Bytes := List UInt8

inductive Value
  | null
  | boolean (b : Bool)
  | int (i : Int32)
  | bigint (i : Int64)
  | float (x : Binary32)
  | double (x : Binary64)
  | text (s : String)
  /-- A symbol of an enumeration, written as its name. -/
  | enum (symbol : String)
  | bytes (bs : Bytes)
  /-- Milliseconds since the epoch. -/
  | timestamp (ms : Int64)
  | uuid (u : Uuid)
  | list (items : List Value)
  | set (items : List Value)
  | map (entries : List (Value × Value))
  /-- A structured object for a column of a user-defined type, by ascending field name. -/
  | fields (entries : List (String × Value))
  deriving Inhabited

namespace Value

def isNull : Value → Bool
  | null => true
  | _ => false

def typeName : Value → String
  | null => "null"
  | boolean _ => "boolean"
  | int _ => "int"
  | bigint _ => "bigint"
  | float _ => "float"
  | double _ => "double"
  | text _ => "text"
  | enum _ => "enum"
  | bytes _ => "bytes"
  | timestamp _ => "timestamp"
  | uuid _ => "uuid"
  | list _ => "list"
  | set _ => "set"
  | map _ => "map"
  | fields _ => "object"

end Value
end WideColumn
