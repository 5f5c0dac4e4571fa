import WideColumn.Datum.Order
import WideColumn.Schema.Table
import WideColumn.Spec.Clause
import WideColumn.Statement.Guard

/-!
Statements whose values have been checked and brought into the store's form.
-/
namespace WideColumn

inductive Relation
  | compare (column : String) (comparison : Comparison) (value : Datum)
  | isIn (column : String) (values : List Datum)
  deriving DecidableEq, Inhabited

def Relation.column : Relation → String
  | compare c _ _ => c
  | isIn c _ => c

/-- How an assignment uses the value given with it. -/
inductive Change
  /-- `c = v` -/
  | set
  /-- `c = c + v` -/
  | add
  /-- `c = c - v` -/
  | discard
  /-- `c = v + c` -/
  | prepend
  deriving DecidableEq, Inhabited

structure Assignment where
  column : String
  change : Change
  value : Datum
  deriving DecidableEq, Inhabited

structure Insertion where
  table : TableId
  cells : List (String × Datum)
  ifNotExists : Bool
  ttl : Option Int32
  deriving DecidableEq

structure RowUpdate where
  table : TableId
  ttl : Option Int32
  assignments : List Assignment
  relations : List Relation
  onlyIf : List Relation
  deriving DecidableEq

structure CounterMove where
  table : TableId
  column : String
  delta : Int64
  relations : List Relation
  deriving DecidableEq

structure RowDelete where
  table : TableId
  relations : List Relation
  ifExists : Bool
  onlyIf : List Relation
  deriving DecidableEq

structure Selection where
  table : TableId
  distinct : Bool
  /-- All columns if none; with `true` also write time and time to live of the column. -/
  projection : Option (List (String × Bool))
  relations : List Relation
  limit : Option Int32
  allowFiltering : Bool
  deriving DecidableEq

inductive StatementKind
  | insert | update | delete | counter | select
  deriving DecidableEq, Inhabited

inductive Statement
  | insert (s : Insertion)
  | update (s : RowUpdate)
  | counter (s : CounterMove)
  | delete (s : RowDelete)
  | select (s : Selection)
  deriving DecidableEq

namespace Statement

def table : Statement → TableId
  | insert s => s.table
  | update s => s.table
  | counter s => s.table
  | delete s => s.table
  | select s => s.table

def kind : Statement → StatementKind
  | insert _ => .insert
  | update _ => .update
  | counter _ => .counter
  | delete _ => .delete
  | select _ => .select

def guard : Statement → Guard
  | insert s => if s.ifNotExists then .ifNotExists else .none
  | update s => if s.onlyIf.isEmpty then .none else .onlyIf
  | delete s => if s.ifExists then .ifExists else if s.onlyIf.isEmpty then .none else .onlyIf
  | counter _ | select _ => .none

end Statement
end WideColumn
