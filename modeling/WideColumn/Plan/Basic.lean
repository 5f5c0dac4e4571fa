import WideColumn.Plan.Binder
import WideColumn.Statement.Text

/-!
What compilation decides before it needs the store: the statement, how its values reach the text, and
whether the text is prepared.
-/
namespace WideColumn

structure Plan where
  statement : Statement
  binding : Binding
  prepare : Bool
  ttl : Option Duration := none
  fetchSize : Option Nat := none
  deriving DecidableEq

namespace Plan

/-- Statements with markers are prepared, statements with literals are not. -/
def of (statement : Statement) (binding : Binding) (ttl : Option Duration) : Plan where
  statement := statement
  binding := binding
  prepare := binding = .markers
  ttl := ttl

def text (p : Plan) : String := p.statement.text p.binding

def values (p : Plan) : List Datum := p.statement.values p.binding

end Plan

def invalid (v : Violation) : Except Error α := .error (.validation v)

/-- Zero would mean "never expires" to the store, so only positive whole seconds are accepted. -/
def ttlSeconds (ttl : Duration) : Except Error Int32 :=
  if ttl.nanos = 0 ∨ ttl.subsecond ≠ 0 then invalid (.ttlNotWhole ttl)
  else if ttl.seconds < 0x8000_0000 then .ok (.ofNat ttl.seconds)
  else invalid (.ttlOutOfRange ttl)

def ttlOption : Option Duration → Except Error (Option Int32)
  | none => .ok none
  | some ttl => (ttlSeconds ttl).map some

namespace Binder

def relation (b : Binder) : Clause → Except Error Relation
  | .compare column op v => return .compare column op (← b.bind column v)
  | .isIn column vs => do
    if vs.isEmpty then invalid (.emptyIn column)
    else return .isIn column (← vs.mapM (b.bind column))

def keyRelation (b : Binder) (key : String × Value) : Except Error Relation :=
  return .compare key.1 .eq (← b.bind key.1 key.2)

/-- One equation for each key, by ascending name, then the conditions. -/
def relations (b : Binder) (keys : SortedMap String Value) (conditions : List Clause) :
    Except Error (List Relation) :=
  return (← keys.toList.mapM b.keyRelation) ++ (← conditions.mapM b.relation)

end Binder
end WideColumn
