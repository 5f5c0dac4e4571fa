import WideColumn.Datum.Order

/-!
What comes back from the store.
-/
namespace WideColumn

/-- How one round trip was served. -/
structure ExecutionInfo where
  coordinator : Option String := none
  tracingId : Option Uuid := none
  attempts : Nat := 0
  warnings : List String := []
  deriving DecidableEq, Inhabited

/-- One page of an answer. A mutation is answered without rows, or by one row that tells whether its
guard held. -/
structure Page where
  columns : List String := []
  rows : List (List Datum) := []
  pagingState : Option Bytes := none
  info : ExecutionInfo := {}
  deriving DecidableEq, Inhabited

def appliedColumn : String := "[applied]"

/-- False only if the first column is the guard's and its first cell is false. -/
def Page.applied (p : Page) : Bool :=
  if p.columns.head? = some appliedColumn then
    ((p.rows.head?.bind List.head?).bind Datum.asBool).getD true
  else true

/-- Outcome of a submission, with one entry for each round trip. -/
structure ResultMeta where
  applied : Bool := true
  info : List ExecutionInfo := []
  deriving DecidableEq, Inhabited

namespace ResultMeta

def ofPage (p : Page) : ResultMeta := ⟨p.applied, [p.info]⟩

def record (r : ResultMeta) (p : Page) : ResultMeta := { r with info := r.info ++ [p.info] }

end ResultMeta

inductive Fault
  | invalidQuery (message : String)
  | internal (message : String)
  | unavailable (message : String)
  | timeout
  | other (message : String)
  deriving DecidableEq, Inhabited

namespace Fault

def message : Fault → String
  | invalidQuery m => "invalid query: " ++ m
  | internal m => "driver internal error: " ++ m
  | unavailable m => "unavailable: " ++ m
  | timeout => "request timed out"
  | other m => m

/-- Faults that usually mean that cached metadata or prepared statements are out of date. -/
def isSchemaFault : Fault → Bool
  | invalidQuery _ | internal _ => true
  | _ => false

end Fault
end WideColumn
