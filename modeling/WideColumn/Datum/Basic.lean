import WideColumn.Value.Basic

/-!
Values in the store's own form, as they are sent with a statement and come back in rows.
-/
namespace WideColumn

inductive Datum
  | null
  | boolean (b : Bool)
  | int (i : Int32)
  | bigint (i : Int64)
  | float (x : Binary32)
  | double (x : Binary64)
  | text (s : String)
  | blob (bs : Bytes)
  /-- Milliseconds since the epoch. -/
  | timestamp (ms : Int64)
  | uuid (u : Uuid)
  | list (items : List Datum)
  | set (items : List Datum)
  | map (entries : List (Datum × Datum))
  /-- A value of a user-defined type, its fields in the order of the type's definition. -/
  | udt (keyspace typeName : String) (fields : List (String × Datum))
  deriving Inhabited

namespace Datum

def isNull : Datum → Bool
  | null => true
  | _ => false

def asBool : Datum → Option Bool
  | boolean b => some b
  | _ => none

def typeName : Datum → String
  | null => "null"
  | boolean _ => "boolean"
  | int _ => "int"
  | bigint _ => "bigint"
  | float _ => "float"
  | double _ => "double"
  | text _ => "text"
  | blob _ => "blob"
  | timestamp _ => "timestamp"
  | uuid _ => "uuid"
  | list _ => "list"
  | set _ => "set"
  | map _ => "map"
  | udt _ _ _ => "udt"

/-- The first field of that name. -/
def field? (name : String) : Datum → Option Datum
  | udt _ _ fields => fields.lookup name
  | _ => none

end Datum
end WideColumn
