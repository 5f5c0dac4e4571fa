import WideColumn.Collection.SortedMap
import WideColumn.Schema.Table
import WideColumn.Spec.Clause

/-!
Reads before compilation.
-/
namespace WideColumn

inductive Cardinality
  | single | many
  deriving DecidableEq, Inhabited

structure Read where
  table : TableId
  cardinality : Cardinality
  keys : SortedMap String (List Value) := .empty
  conditions : List Clause := []
  /-- The columns to fetch, all of them if none; with `true` also write time and time to live. -/
  columns : Option (SortedMap String Bool) := none
  limit : Option Nat := none
  allowFiltering : Bool := false
  fetchSize : Option Nat := none
  distinct : Bool := false
  deriving DecidableEq

namespace Read

inductive Step
  | key (name : String) (value : Value)
  | keyValues (name : String) (values : List Value)
  | condition (clause : Clause)
  | column (name : String)
  | columnWithMetadata (name : String)
  | allColumns
  | limit (n : Nat)
  | allowFiltering
  | fetchSize (n : Nat)
  | distinct
  deriving DecidableEq

def project (r : Read) (name : String) (withMetadata : Bool) : Read :=
  { r with columns := some ((r.columns.getD .empty).insert name withMetadata) }

def apply (r : Read) : Step → Read
  | .key n v => { r with keys := r.keys.insert n [v] }
  | .keyValues n vs => { r with keys := r.keys.insert n vs }
  | .condition c => { r with conditions := r.conditions ++ [c] }
  | .column n => r.project n false
  | .columnWithMetadata n => r.project n true
  | .allColumns => { r with columns := none }
  | .limit n => { r with limit := some n }
  | .allowFiltering => { r with allowFiltering := true }
  | .fetchSize n => { r with fetchSize := some n }
  | .distinct => { r with distinct := true }

def applyAll (r : Read) (steps : List Step) : Read := steps.foldl apply r

end Read
end WideColumn
