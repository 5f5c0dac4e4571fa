import WideColumn.Catalog.Entry
import WideColumn.Collection.SortedMap
import WideColumn.Collection.SortedSet
import WideColumn.Datum.Order
import WideColumn.Value.Order

/-!
Checking caller values against declared column types and bringing them into the store's form. Nothing
is coerced but small integers and floats into their wider kinds, symbols into text, and empty
collections into null.
-/
namespace WideColumn

structure Binder where
  entry : TableEntry
  types : TypeDefs

namespace Binder

def column (b : Binder) (name : String) : Except Error Column := b.entry.column name

def mismatch (b : Binder) (column : String) (expected : ColumnType) (actual : String) : Error :=
  .typeMismatch b.entry.id.display column expected.toText actual

/-- The elements as a set: sorted, each once. -/
def asSet (items : List Datum) : Datum := .set (SortedSet.ofList items).toList

/-- Reads the fields of a definition, in its order, from converters of the fields given. -/
def takeFields (column : String)
    (given : List (String × (String → ColumnType → Except Error Datum))) :
    List (String × ColumnType) → Except Error (List (String × Datum))
  | [] => .ok []
  | (field, type) :: rest => do
    let value ← match given.lookup field with
      | some convert => convert (column ++ "." ++ field) type
      | none => .ok .null
    let others ← takeFields column given rest
    return (field, value) :: others

def asciiText (s : String) : Option Datum :=
  if s.toList.all fun c => c.toNat < 128 then some (.text s) else none

/-- The store's form of a value without parts, if it fits the type. -/
def scalar? : Value → ColumnType → Option Datum
  | .boolean v, .boolean => some (.boolean v)
  | .int v, .int => some (.int v)
  | .int v, .bigint => some (.bigint v.toInt64)
  | .int v, .counter => some (.bigint v.toInt64)
  | .bigint v, .bigint => some (.bigint v)
  | .bigint v, .counter => some (.bigint v)
  | .float v, .float => some (.float v)
  | .float v, .double => some (.double v.widen)
  | .double v, .double => some (.double v)
  | .text s, .text => some (.text s)
  | .enum s, .text => some (.text s)
  | .text s, .ascii => asciiText s
  | .enum s, .ascii => asciiText s
  | .bytes bs, .blob => some (.blob bs)
  | .timestamp ms, .timestamp => some (.timestamp ms)
  | .uuid u, .uuid => some (.uuid u)
  | .uuid u, .timeuuid => some (.uuid u)
  | _, _ => none

mutual
/-- `column` is the path under which a mismatch is reported. -/
def convert (b : Binder) : Value → String → ColumnType → Except Error Datum
  | .null, _, _ => .ok .null
  | .list items, column, type =>
    match type with
    | .list element =>
      if items.isEmpty then .ok .null
      else return .list (← b.convertItems items column element)
    | .set element =>
      if items.isEmpty then .ok .null
      else return asSet (← b.convertItems items column element)
    | _ => .error (b.mismatch column type "list")
  | .set items, column, type =>
    match type with
    | .list _ => if items.isEmpty then .ok .null else .error (b.mismatch column type "set")
    | .set element =>
      if items.isEmpty then .ok .null
      else return asSet (← b.convertItems items column element)
    | _ => .error (b.mismatch column type "set")
  | .map entries, column, type =>
    match type with
    | .map key value =>
      if entries.isEmpty then .ok .null
      else return .map (← b.convertEntries entries column key value)
    | _ => .error (b.mismatch column type "map")
  | .fields entries, column, type =>
    match type with
    | .udt name =>
      match b.types.lookup name with
      | none => .error (.typeNotFound b.entry.id.keyspace name)
      | some definition =>
        match entries.find? fun e => (definition.fieldType? e.1).isNone with
        | some unknown =>
          .error (.unknownColumn (b.entry.id.keyspace ++ "." ++ name) unknown.1)
        | none =>
          return .udt b.entry.id.keyspace name
            (← takeFields column (b.converters entries) definition.fields)
    | _ => .error (b.mismatch column type "object")
  | v, column, type =>
    match scalar? v type with
    | some d => .ok d
    | none => .error (b.mismatch column type v.typeName)

def convertItems (b : Binder) : List Value → String → ColumnType → Except Error (List Datum)
  | [], _, _ => .ok []
  | v :: vs, column, type => do
    let item ← b.convert v column type
    let items ← b.convertItems vs column type
    return item :: items

def convertEntries (b : Binder) :
    List (Value × Value) → String → ColumnType → ColumnType → Except Error (List (Datum × Datum))
  | [], _, _, _ => .ok []
  | (k, v) :: es, column, key, value => do
    let k ← b.convert k column key
    let v ← b.convert v column value
    let entries ← b.convertEntries es column key value
    return (k, v) :: entries

def converters (b : Binder) :
    List (String × Value) → List (String × (String → ColumnType → Except Error Datum))
  | [] => []
  | (name, v) :: es => (name, fun column type => b.convert v column type) :: b.converters es
end

/-- Checks a value against the type of a column. -/
def bind (b : Binder) (column : String) (v : Value) : Except Error Datum := do
  let c ← b.column column
  b.convert v column c.type

/-- Elements to be added to or removed from a set column. -/
def bindSet (b : Binder) (column : String) (values : SortedSet Value) : Except Error Datum := do
  let c ← b.column column
  match c.type with
  | .set element => return asSet (← b.convertItems values.toList column element)
  | type => throw (b.mismatch column type "set")

/-- Elements, in order, for a list column. -/
def bindList (b : Binder) (column : String) (values : List Value) : Except Error Datum := do
  let c ← b.column column
  match c.type with
  | .list element => return .list (← b.convertItems values column element)
  | type => throw (b.mismatch column type "list")

/-- Entries for a map column; those without a value are dropped unchecked. -/
def bindMap (b : Binder) (column : String) (entries : SortedMap Value Value) :
    Except Error Datum := do
  let c ← b.column column
  match c.type with
  | .map key value =>
    let kept := entries.toList.filter fun e => !e.2.isNull
    return .map (← b.convertEntries kept column key value)
  | type => throw (b.mismatch column type "map")

end Binder
end WideColumn
