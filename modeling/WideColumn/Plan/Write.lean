import WideColumn.Plan.Basic
import WideColumn.Spec.Write

/-!
Plans for writes. A write becomes an insertion when it is aimed at no row or only assigns whole
values, and an update otherwise.
-/
namespace WideColumn.Write

/-- Whole collection values that the modifications of the write amount to on a row without any. -/
def folded (w : Write) (b : Binder) : Except Error (List (String × Datum)) := do
  let sets ← w.setAdds.toList.mapM fun (name, values) => return (name, ← b.bindSet name values)
  let names := SortedSet.ofList (w.listPrepends.keys ++ w.listAppends.keys)
  let lists ← names.toList.mapM fun name => return (name, ← b.bindList name
    ((w.listPrepends.get? name).getD [] ++ (w.listAppends.get? name).getD []))
  let maps ← w.mapPuts.toList.mapM fun (name, entries) => return (name, ← b.bindMap name entries)
  return sets ++ lists ++ maps

def bindAll (b : Binder) (values : SortedMap String Value) :
    Except Error (List (String × Datum)) :=
  values.toList.mapM fun (name, v) => return (name, ← b.bind name v)

/-- Adds cells whose columns have none yet. -/
def addCells (cells : SortedMap String Datum) :
    List (String × Datum) → Except Error (SortedMap String Datum)
  | [] => .ok cells
  | (name, v) :: rest =>
    if cells.contains name then invalid (.assignedAndModified name)
    else addCells (cells.insert name v) rest

def insertion (w : Write) (b : Binder) : Except Error Insertion := do
  if !w.onlyIf.isEmpty then invalid .onlyIfOnInsert
  if !(w.setRemoves.isEmpty && w.listRemoves.isEmpty) then invalid .removalOnInsert
  let values ← bindAll b w.values
  let keys ← bindAll b w.keys
  let cells ← addCells (.ofList (values ++ keys)) (← w.folded b)
  if cells.isEmpty then invalid (.nothingToWrite w.table)
  let ttl ← ttlOption w.ttl
  return ⟨w.table, cells.toList, w.ifNotExists, ttl⟩

/-- Plain values outside of the primary key. -/
def plainAssignments (w : Write) (b : Binder) : Except Error (List Assignment) := do
  let found ← w.values.toList.mapM fun (name, v) => do
    if (← b.column name).isPrimaryKey then return none
    else return some (Assignment.mk name .set (← b.bind name v))
  return found.filterMap id

def assignEach (change : Change) (bind : String → α → Except Error Datum)
    (columns : SortedMap String α) : Except Error (List Assignment) :=
  columns.toList.mapM fun (name, a) => return ⟨name, change, ← bind name a⟩

/-- Entries put into maps; a column whose entries all lack a value is left alone. -/
def mapAssignments (w : Write) (b : Binder) : Except Error (List Assignment) := do
  return (← assignEach .add b.bindMap w.mapPuts).filter fun a => a.value ≠ .map []

def assignments (w : Write) (b : Binder) : Except Error (List Assignment) := do
  let plain ← w.plainAssignments b
  let setAdds ← assignEach .add b.bindSet w.setAdds
  let setRemoves ← assignEach .discard b.bindSet w.setRemoves
  let listPrepends ← assignEach .prepend b.bindList w.listPrepends
  let listAppends ← assignEach .add b.bindList w.listAppends
  let listRemoves ← assignEach .discard b.bindList w.listRemoves
  let mapPuts ← w.mapAssignments b
  return plain ++ setAdds ++ setRemoves ++ listPrepends ++ listAppends ++ listRemoves ++ mapPuts

def rowUpdate (w : Write) (b : Binder) : Except Error RowUpdate := do
  let ttl ← ttlOption w.ttl
  let assignments ← w.assignments b
  if assignments.isEmpty then invalid (.nothingToUpdate w.table)
  let relations ← b.relations w.keys w.conditions
  let onlyIf ← w.onlyIf.mapM b.relation
  return ⟨w.table, ttl, assignments, relations, onlyIf⟩

def isInsertion (w : Write) : Bool :=
  w.conditions.isEmpty &&
    (w.ifNotExists || w.keys.isEmpty || (!w.hasDeltas && w.onlyIf.isEmpty))

/-- What is wrong with the write whatever its table looks like. -/
def check (w : Write) : Except Error Unit :=
  if w.ifNotExists && !w.conditions.isEmpty then invalid .ifNotExistsWithWhere else .ok ()

def updatePlan (w : Write) (b : Binder) (binding : Binding) : Except Error Plan :=
  return .of (.update (← w.rowUpdate b)) binding w.ttl

def plan (w : Write) (b : Binder) : Except Error Plan := do
  if w.isInsertion then return .of (.insert (← w.insertion b)) .markers w.ttl
  else w.updatePlan b (if w.conditions.isEmpty && w.onlyIf.isEmpty then .markers else .literals)

end WideColumn.Write
