import WideColumn.Collection.SortedMap
import WideColumn.Datum.Basic
import WideColumn.Document.Basic

/-!
Values as documents. Kinds that structured text does not tell apart are named; floating-point numbers
are written by the hexadecimal digits of their bits.
-/
namespace WideColumn

namespace Document

def ofBytes (bs : Bytes) : Document := chars (Hex.encode bs)

def bytes? (d : Document) : Option Bytes := do Hex.decode? (← d.text?).toList

def ofBits32 (x : Binary32) : Document := chars (Hex.digits 8 x.bits.toNat)

def bits32? (d : Document) : Option Binary32 := do
  return ⟨.ofNat (← Hex.number? (← d.text?).toList)⟩

def ofBits64 (x : Binary64) : Document := chars (Hex.digits 16 x.bits.toNat)

def bits64? (d : Document) : Option Binary64 := do
  return ⟨.ofNat (← Hex.number? (← d.text?).toList)⟩

def ofInt32 (i : Int32) : Document := ofInt i.toInt

def int32? (d : Document) : Option Int32 := do
  let n ← d.int?
  if -0x8000_0000 ≤ n ∧ n < 0x8000_0000 then some (.ofInt n) else none

def ofInt64 (i : Int64) : Document := ofInt i.toInt

def int64? (d : Document) : Option Int64 := do
  let n ← d.int?
  if -0x8000_0000_0000_0000 ≤ n ∧ n < 0x8000_0000_0000_0000 then some (.ofInt n) else none

def uuid? (d : Document) : Option Uuid := do Uuid.parse? (← d.text?)

def ofUuid (u : Uuid) : Document := text u.toText

end Document

open Document (tagged)

namespace Value

mutual
def toDocument : Value → Document
  | null => .null
  | boolean b => .boolean b
  | int i => .ofInt32 i
  | bigint i => tagged "bigint" (.ofInt64 i)
  | float x => tagged "float" (.ofBits32 x)
  | double x => tagged "double" (.ofBits64 x)
  | text s => .text s
  | enum s => tagged "enum" (.text s)
  | bytes bs => tagged "bytes" (.ofBytes bs)
  | timestamp ms => tagged "timestamp" (.ofInt64 ms)
  | uuid u => tagged "uuid" (.ofUuid u)
  | list items => tagged "list" (.list (itemDocuments items))
  | set items => tagged "set" (.list (itemDocuments items))
  | map entries => tagged "map" (.list (entryDocuments entries))
  | fields entries => tagged "fields" (.fields (fieldDocuments entries))

def itemDocuments : List Value → List Document
  | [] => []
  | v :: vs => v.toDocument :: itemDocuments vs

def entryDocuments : List (Value × Value) → List Document
  | [] => []
  | (k, v) :: es => .list [k.toDocument, v.toDocument] :: entryDocuments es

def fieldDocuments : List (String × Value) → List (String × Document)
  | [] => []
  | (name, v) :: es => (name, v.toDocument) :: fieldDocuments es
end

/-- A value without parts of a kind that has to be named. -/
def named? (kind : String) (d : Document) : Option Value :=
  match kind with
  | "bigint" => d.int64?.map bigint
  | "float" => d.bits32?.map float
  | "double" => d.bits64?.map double
  | "enum" => d.text?.map enum
  | "bytes" => d.bytes?.map bytes
  | "timestamp" => d.int64?.map timestamp
  | "uuid" => d.uuid?.map uuid
  | _ => none

mutual
def ofDocument? : Document → Option Value
  | .null => some null
  | .boolean b => some (boolean b)
  | .text s => some (text s)
  | .fields [("list", .list ds)] => (ofItems? ds).map list
  | .fields [("set", .list ds)] => (ofItems? ds).map set
  | .fields [("map", .list ds)] => (ofEntries? ds).map map
  | .fields [("fields", .fields es)] =>
    (ofFields? es).map fun es => fields (SortedMap.ofList es).toList
  | .fields [(kind, d)] => named? kind d
  | d => d.int32?.map int

def ofItems? : List Document → Option (List Value)
  | [] => some []
  | d :: ds => do return (← ofDocument? d) :: (← ofItems? ds)

def ofEntries? : List Document → Option (List (Value × Value))
  | [] => some []
  | .list [k, v] :: ds => do return (← ofDocument? k, ← ofDocument? v) :: (← ofEntries? ds)
  | _ :: _ => none

def ofFields? : List (String × Document) → Option (List (String × Value))
  | [] => some []
  | (name, d) :: es => do return (name, ← ofDocument? d) :: (← ofFields? es)
end

end Value

namespace Datum

mutual
def toDocument : Datum → Document
  | null => .null
  | boolean b => .boolean b
  | int i => .ofInt32 i
  | bigint i => tagged "bigint" (.ofInt64 i)
  | float x => tagged "float" (.ofBits32 x)
  | double x => tagged "double" (.ofBits64 x)
  | text s => .text s
  | blob bs => tagged "blob" (.ofBytes bs)
  | timestamp ms => tagged "timestamp" (.ofInt64 ms)
  | uuid u => tagged "uuid" (.ofUuid u)
  | list items => tagged "list" (.list (itemDocuments items))
  | set items => tagged "set" (.list (itemDocuments items))
  | map entries => tagged "map" (.list (entryDocuments entries))
  | udt keyspace typeName fields =>
    tagged "udt" (.fields [("keyspace", .text keyspace), ("type_name", .text typeName),
      ("fields", .list (fieldDocuments fields))])

def itemDocuments : List Datum → List Document
  | [] => []
  | v :: vs => v.toDocument :: itemDocuments vs

def entryDocuments : List (Datum × Datum) → List Document
  | [] => []
  | (k, v) :: es => .list [k.toDocument, v.toDocument] :: entryDocuments es

def fieldDocuments : List (String × Datum) → List Document
  | [] => []
  | (name, v) :: es => .list [.text name, v.toDocument] :: fieldDocuments es
end

/-- A value without parts of a kind that has to be named. -/
def named? (kind : String) (d : Document) : Option Datum :=
  match kind with
  | "bigint" => d.int64?.map bigint
  | "float" => d.bits32?.map float
  | "double" => d.bits64?.map double
  | "blob" => d.bytes?.map blob
  | "timestamp" => d.int64?.map timestamp
  | "uuid" => d.uuid?.map uuid
  | _ => none

mutual
def ofDocument? : Document → Option Datum
  | .null => some null
  | .boolean b => some (boolean b)
  | .text s => some (text s)
  | .fields [("list", .list ds)] => (ofItems? ds).map list
  | .fields [("set", .list ds)] => (ofItems? ds).map set
  | .fields [("map", .list ds)] => (ofEntries? ds).map map
  | .fields [("udt", .fields parts)] => do
    return udt (← (← parts.lookup "keyspace").text?) (← (← parts.lookup "type_name").text?)
      (← ofParts? parts)
  | .fields [(kind, d)] => named? kind d
  | d => d.int32?.map int

def ofItems? : List Document → Option (List Datum)
  | [] => some []
  | d :: ds => do return (← ofDocument? d) :: (← ofItems? ds)

def ofEntries? : List Document → Option (List (Datum × Datum))
  | [] => some []
  | .list [k, v] :: ds => do return (← ofDocument? k, ← ofDocument? v) :: (← ofEntries? ds)
  | _ :: _ => none

/-- The part of a user-defined value that holds its fields. -/
def ofParts? : List (String × Document) → Option (List (String × Datum))
  | [] => none
  | ("fields", .list ds) :: _ => ofFields? ds
  | _ :: rest => ofParts? rest

def ofFields? : List Document → Option (List (String × Datum))
  | [] => some []
  | .list [.text name, d] :: ds => do return (name, ← ofDocument? d) :: (← ofFields? ds)
  | _ :: _ => none
end

end Datum
end WideColumn
