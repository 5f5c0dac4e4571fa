import WideColumn.Error
import WideColumn.Number.Duration

/-!
Fetched rows and looking up their cells by column name.
-/
namespace WideColumn

structure Record where
  columns : List String
  values : List Datum
  deriving DecidableEq, Inhabited

namespace Record

def ofPairs (cells : List (String × Datum)) : Record := ⟨cells.map Prod.fst, cells.map Prod.snd⟩

/-- Names that differ at most in the case of the letters a to z. -/
def sameLetters (a b : String) : Bool :=
  a.toList.map Char.toLower = b.toList.map Char.toLower

/-- The last column of exactly that name, or else the first that differs in case only. -/
def position? (r : Record) (name : String) : Option Nat :=
  match r.columns.reverse.findIdx? (· = name) with
  | some i => some (r.columns.length - 1 - i)
  | none => r.columns.findIdx? (sameLetters · name)

/-- The cell of a column, none also if it is null. -/
def value? (r : Record) (column : String) : Option Datum :=
  ((r.position? column).bind (r.values[·]?)).filter (!·.isNull)

/-- Decodes a cell, if there is one. -/
def get (r : Record) (decode : String → Datum → Except DecodeFailure α) (column : String) :
    Except Error (Option α) :=
  match r.value? column with
  | none => .ok none
  | some v =>
    match decode column v with
    | .ok a => .ok (some a)
    | .error failure => .error (.decode failure)

/-- Decodes a cell that has to be there. -/
def require (r : Record) (decode : String → Datum → Except DecodeFailure α) (column : String) :
    Except Error α := do
  match ← r.get decode column with
  | some a => return a
  | none => throw (.decode (.missingColumn column))

/-- Microseconds at which the column was written, if it was read with metadata. -/
def writeTime (r : Record) (column : String) : Option Int64 :=
  match r.value? ("writetime(" ++ column ++ ")") with
  | some (.bigint t) | some (.timestamp t) => some t
  | some (.int t) => some t.toInt64
  | _ => none

def spanOfSeconds (n : Int) : Option Duration :=
  if 0 ≤ n then some (.ofSeconds n.toNat) else none

/-- What is left of the column's time to live, if it was read with metadata and has one. -/
def ttl (r : Record) (column : String) : Option Duration :=
  match r.value? ("ttl(" ++ column ++ ")") with
  | some (.int n) => spanOfSeconds n.toInt
  | some (.bigint n) => spanOfSeconds n.toInt
  | _ => none

end Record
end WideColumn
