import WideColumn.Collection.SortedMap
import WideColumn.Collection.SortedSet
import WideColumn.Error
import WideColumn.Number.WallTime
import WideColumn.Value.Order

/-!
How the types of a caller are written as values and read from cells.
-/
namespace WideColumn

structure Codec (α : Type) where
  encode : α → Value
  /-- The column's name is reported with a failure. -/
  decode : String → Datum → Except DecodeFailure α

namespace Codec

def mismatch (column expected : String) (actual : Datum) : DecodeFailure :=
  .mismatch column expected actual.typeName

def bool : Codec Bool where
  encode := .boolean
  decode column
    | .boolean b => .ok b
    | d => .error (mismatch column "boolean" d)

def int32 : Codec Int32 where
  encode := .int
  decode column
    | .int i => .ok i
    | d => .error (mismatch column "int" d)

/-- Also reads the smaller integers, and timestamps as milliseconds. -/
def int64 : Codec Int64 where
  encode := .bigint
  decode column
    | .int i => .ok i.toInt64
    | .bigint i => .ok i
    | .timestamp ms => .ok ms
    | d => .error (mismatch column "bigint" d)

def float : Codec Binary32 where
  encode := .float
  decode column
    | .float x => .ok x
    | d => .error (mismatch column "float" d)

/-- Also reads the narrower numbers. -/
def double : Codec Binary64 where
  encode := .double
  decode column
    | .float x => .ok x.widen
    | .double x => .ok x
    | d => .error (mismatch column "double" d)

def text : Codec String where
  encode := .text
  decode column
    | .text s => .ok s
    | d => .error (mismatch column "text" d)

def bytes : Codec Bytes where
  encode := .bytes
  decode column
    | .blob bs => .ok bs
    | d => .error (mismatch column "blob" d)

def uuid : Codec Uuid where
  encode := .uuid
  decode column
    | .uuid u => .ok u
    | d => .error (mismatch column "uuid" d)

def wallTime : Codec WallTime where
  encode t := .timestamp t.millis
  decode column
    | .timestamp ms =>
      match WallTime.ofMillis? ms with
      | some t => .ok t
      | none => .error (.reported s!"timestamp {ms} out of range in '{column}'")
    | d => .error (mismatch column "timestamp" d)

/-- Nothing is written as null; nulls do not reach a decoder. -/
def option (c : Codec α) : Codec (Option α) where
  encode a := (a.map c.encode).getD .null
  decode column d := (c.decode column d).map some

/-- The elements of a list or a set. -/
def elements (column expected : String) : Datum → Except DecodeFailure (List Datum)
  | .list items | .set items => .ok items
  | d => .error (mismatch column expected d)

def list (c : Codec α) : Codec (List α) where
  encode as := .list (as.map c.encode)
  decode column d := do (← elements column "list" d).mapM (c.decode column)

def set [Ord α] [Std.TransOrd α] [Std.LawfulEqOrd α] (c : Codec α) : Codec (SortedSet α) where
  encode as := .set (as.toList.map c.encode)
  decode column d := do
    return .ofList (← (← elements column "set" d).mapM (c.decode column))

/-- The entries of a map. -/
def entries (column : String) : Datum → Except DecodeFailure (List (Datum × Datum))
  | .map es => .ok es
  | d => .error (mismatch column "map" d)

/-- Of two entries with one key the later counts. -/
def map [Ord κ] [Std.TransOrd κ] [Std.LawfulEqOrd κ] (k : Codec κ) (c : Codec α) :
    Codec (SortedMap κ α) where
  encode m := .map (m.toList.map fun e => (k.encode e.1, c.encode e.2))
  decode column d := do
    return .ofList (← (← entries column d).mapM fun e =>
      return (← k.decode column e.1, ← c.decode column e.2))

/-- Cells as they are. -/
def readAny (_ : String) (d : Datum) : Except DecodeFailure Datum := .ok d

/-- Values of user-defined types as they are. -/
def readUdt (column : String) : Datum → Except DecodeFailure Datum
  | .udt keyspace typeName fields => .ok (.udt keyspace typeName fields)
  | d => .error (mismatch column "udt" d)

end Codec
end WideColumn
