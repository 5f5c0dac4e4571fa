import WideColumn.Plan.Mutation
import WideColumn.Plan.Read
import WideColumn.Spec.Specification

/-!
Statements written out as text at once: whenever a value is met it gets its place in the text, and is
recorded beside it where the text has a marker. A plan comes to the same text and values.
-/
namespace WideColumn

open Identifier (quote)

/-- The state is the list of values recorded so far. -/
abbrev Fragments := StateT (List Datum) (Except Error)

namespace Fragments

/-- A marker, for which the value is recorded, or the literal of the value. -/
def slot : Binding → Datum → Fragments (List Char)
  | .markers, v => do
    modify (· ++ [v])
    return ['?']
  | .literals, v => return v.literal

def commas (parts : List (List Char)) : List Char := ", ".toList.intercalate parts

def ands (parts : List (List Char)) : List Char := " AND ".toList.intercalate parts

def ttlClause (form : Binding) : Option Duration → Fragments (List Char)
  | none => return []
  | some span => return " USING TTL ".toList ++ (← slot form (.int (← ttlSeconds span)))

def relation (form : Binding) (b : Binder) : Clause → Fragments (List Char)
  | .compare column op v => do
    let slot ← slot form (← b.bind column v)
    return quote column ++ ' ' :: op.symbol.toList ++ ' ' :: slot
  | .isIn column vs => do
    if vs.isEmpty then invalid (.emptyIn column)
    let slots ← vs.mapM fun v => do slot form (← b.bind column v)
    return quote column ++ " IN (".toList ++ commas slots ++ [')']

def equation (form : Binding) (b : Binder) (key : String × Value) : Fragments (List Char) := do
  let slot ← slot form (← b.bind key.1 key.2)
  return quote key.1 ++ " = ".toList ++ slot

def whereClause (form : Binding) (b : Binder) (keys : SortedMap String Value) (conditions : List Clause) :
    Fragments (List Char) := do
  let keys ← keys.toList.mapM (equation form b)
  let conditions ← conditions.mapM (relation form b)
  return " WHERE ".toList ++ ands (keys ++ conditions)

def onlyIfClause (form : Binding) (b : Binder) (conditions : List Clause) : Fragments (List Char) := do
  if conditions.isEmpty then return []
  else return " IF ".toList ++ ands (← conditions.mapM (relation form b))

/-- How a column is assigned when this stands for the value. -/
def assigned (column : String) (slot : List Char) : Change → List Char
  | .set => quote column ++ " = ".toList ++ slot
  | .add => quote column ++ " = ".toList ++ quote column ++ " + ".toList ++ slot
  | .discard => quote column ++ " = ".toList ++ quote column ++ " - ".toList ++ slot
  | .prepend => quote column ++ " = ".toList ++ slot ++ " + ".toList ++ quote column

def assignColumns (form : Binding) (change : Change) (bind : String → α → Except Error Datum)
    (columns : SortedMap String α) : Fragments (List (List Char)) :=
  columns.toList.mapM fun (name, a) => do
    return assigned name (← slot form (← bind name a)) change

/-- How a counter is moved: a value is added, or an amount by its sign. -/
def moved (column : String) (delta : Int64) : Binding → Fragments (List Char)
  | .markers => do return assigned column (← slot .markers (.bigint delta)) .add
  | .literals =>
    let change := if delta.toInt < 0 then .discard else .add
    return assigned column (Nat.toDigits 10 delta.toInt.natAbs) change

/-- The text, and the values recorded on the way. -/
def collect (x : Fragments (List Char)) : Except Error (String × List Datum) :=
  (x.run []).map fun r => (String.ofList r.1, r.2)

end Fragments

open Fragments

namespace Write

/-- What is inserted into each column, by ascending name. -/
def cells (w : Write) (b : Binder) : Except Error (List (String × Datum)) := do
  if !w.onlyIf.isEmpty then invalid .onlyIfOnInsert
  if !(w.setRemoves.isEmpty && w.listRemoves.isEmpty) then invalid .removalOnInsert
  let values ← bindAll b w.values
  let keys ← bindAll b w.keys
  let cells ← addCells (.ofList (values ++ keys)) (← w.folded b)
  if cells.isEmpty then invalid (.nothingToWrite w.table)
  return cells.toList

def insertFragments (w : Write) (b : Binder) : Fragments (List Char) := do
  let cells ← w.cells b
  let slots ← cells.mapM fun c => slot .markers c.2
  let text := "INSERT INTO ".toList ++ w.table.cql ++ " (".toList ++ commas (cells.map fun c => quote c.1) ++
    ") VALUES (".toList ++ commas slots ++ [')']
  let guard := if w.ifNotExists then " IF NOT EXISTS".toList else []
  return text ++ guard ++ (← ttlClause .markers w.ttl)

def plainFragments (w : Write) (form : Binding) (b : Binder) : Fragments (List (List Char)) := do
  let found ← w.values.toList.mapM fun (name, v) => do
    if (← b.column name).isPrimaryKey then return none
    else return some (assigned name (← slot form (← b.bind name v)) .set)
  return found.filterMap id

def mapFragments (w : Write) (form : Binding) (b : Binder) : Fragments (List (List Char)) := do
  let found ← w.mapPuts.toList.mapM fun (name, entries) => do
    let bound ← b.bindMap name entries
    if bound = .map [] then return none
    else return some (assigned name (← slot form bound) .add)
  return found.filterMap id

def assignmentFragments (w : Write) (form : Binding) (b : Binder) : Fragments (List (List Char)) := do
  let plain ← w.plainFragments form b
  let setAdds ← assignColumns form .add b.bindSet w.setAdds
  let setRemoves ← assignColumns form .discard b.bindSet w.setRemoves
  let listPrepends ← assignColumns form .prepend b.bindList w.listPrepends
  let listAppends ← assignColumns form .add b.bindList w.listAppends
  let listRemoves ← assignColumns form .discard b.bindList w.listRemoves
  let mapPuts ← w.mapFragments form b
  return plain ++ setAdds ++ setRemoves ++ listPrepends ++ listAppends ++ listRemoves ++ mapPuts

def updateFragments (w : Write) (form : Binding) (b : Binder) : Fragments (List Char) := do
  let ttl ← ttlClause form w.ttl
  let assignments ← w.assignmentFragments form b
  if assignments.isEmpty then invalid (.nothingToUpdate w.table)
  let relations ← whereClause form b w.keys w.conditions
  return "UPDATE ".toList ++ w.table.cql ++ ttl ++ " SET ".toList ++ commas assignments ++
    relations ++ (← onlyIfClause form b w.onlyIf)

def fragments (w : Write) (b : Binder) : Fragments (List Char) := do
  if w.isInsertion then w.insertFragments b
  else w.updateFragments (if w.conditions.isEmpty && w.onlyIf.isEmpty then .markers else .literals) b

end Write

def CounterUpdate.fragments (u : CounterUpdate) (b : Binder) : Fragments (List Char) := do
  let c ← b.column u.column
  if !c.type.isCounter then
    throw (.typeMismatch u.table.display u.column "counter" c.type.toText)
  let form : Binding := if u.conditions.isEmpty then .markers else .literals
  let assignment ← moved u.column u.delta form
  let relations ← whereClause form b u.keys u.conditions
  return "UPDATE ".toList ++ u.table.cql ++ " SET ".toList ++ assignment ++ relations

def Deletion.fragments (d : Deletion) (b : Binder) : Fragments (List Char) := do
  let form : Binding :=
    if d.conditions.isEmpty && d.onlyIf.isEmpty && !d.ifExists then .markers else .literals
  let relations ← whereClause form b d.keys d.conditions
  let guard ← if d.ifExists then pure " IF EXISTS".toList else onlyIfClause form b d.onlyIf
  return "DELETE FROM ".toList ++ d.table.cql ++ relations ++ guard

namespace Read

def projectionFragments (r : Read) (b : Binder) : Except Error (List Char) :=
  match r.columns with
  | none => .ok ['*']
  | some columns => do
    let parts ← columns.toList.mapM fun (name, withMetadata) => do
      let _ ← b.column name
      let c := quote name
      return c :: if withMetadata then ["WRITETIME(".toList ++ c ++ [')'], "TTL(".toList ++ c ++ [')']] else []
    return commas parts.flatten

def limitClause : Option Int32 → Fragments (List Char)
  | none => return []
  | some n => return " LIMIT ".toList ++ (← slot .markers (.int n))

def keyFragments (b : Binder) : String × List Value → Fragments (List Char)
  | (name, []) => invalid (.emptyKey name)
  | (name, [v]) => equation .markers b (name, v)
  | (name, vs) => do
    let slots ← vs.mapM fun v => do slot .markers (← b.bind name v)
    return quote name ++ " IN (".toList ++ commas slots ++ [')']

def fragments (r : Read) (b : Binder) : Fragments (List Char) := do
  let projection ← r.projectionFragments b
  let keys ← r.keys.toList.mapM (keyFragments b)
  let conditions ← r.conditions.mapM (relation .markers b)
  let relations := keys ++ conditions
  let restriction := if relations.isEmpty then [] else " WHERE ".toList ++ ands relations
  let limit ← limitClause (← limitOption r.limit)
  return "SELECT ".toList ++ (if r.distinct then "DISTINCT ".toList else []) ++ projection ++
    " FROM ".toList ++ r.table.cql ++ restriction ++ limit ++
    if r.allowFiltering then " ALLOW FILTERING".toList else []

end Read

def Specification.fragments : Specification → Binder → Fragments (List Char)
  | mutation (.write w), b => do
    w.check
    w.fragments b
  | mutation (.counter u), b => do
    u.check
    u.fragments b
  | mutation (.delete d), b => do
    d.check
    d.fragments b
  | read r, b => r.fragments b

end WideColumn
