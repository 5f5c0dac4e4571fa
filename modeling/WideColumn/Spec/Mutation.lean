import WideColumn.Spec.Write

/-!
Counter updates and deletions, and the three sorts of mutation together.
-/
namespace WideColumn

/-- Moves one counter column by a signed amount. -/
structure CounterUpdate where
  table : TableId
  keys : SortedMap String Value := .empty
  conditions : List Clause := []
  column : String
  delta : Int64
  deriving DecidableEq

namespace CounterUpdate

/-- A counter update of the rows that a write is aimed at. -/
def ofWrite (w : Write) (column : String) (delta : Int64) : CounterUpdate where
  table := w.table
  keys := w.keys
  conditions := w.conditions
  column := column
  delta := delta

inductive Step
  | key (name : String) (value : Value)
  | condition (clause : Clause)
  deriving DecidableEq

def apply (u : CounterUpdate) : Step → CounterUpdate
  | .key n v => { u with keys := u.keys.insert n v }
  | .condition c => { u with conditions := u.conditions ++ [c] }

end CounterUpdate

structure Deletion where
  table : TableId
  keys : SortedMap String Value := .empty
  conditions : List Clause := []
  onlyIf : List Clause := []
  ifExists : Bool := false
  deriving DecidableEq

namespace Deletion

inductive Step
  | key (name : String) (value : Value)
  | condition (clause : Clause)
  | onlyIf (clause : Clause)
  | ifExists
  deriving DecidableEq

def apply (d : Deletion) : Step → Deletion
  | .key n v => { d with keys := d.keys.insert n v }
  | .condition c => { d with conditions := d.conditions ++ [c] }
  | .onlyIf c => { d with onlyIf := d.onlyIf ++ [c] }
  | .ifExists => { d with ifExists := true }

def applyAll (d : Deletion) (steps : List Step) : Deletion := steps.foldl apply d

end Deletion

inductive Mutation
  | write (w : Write)
  | delete (d : Deletion)
  | counter (u : CounterUpdate)
  deriving DecidableEq

def Mutation.table : Mutation → TableId
  | write w => w.table
  | delete d => d.table
  | counter u => u.table

end WideColumn
