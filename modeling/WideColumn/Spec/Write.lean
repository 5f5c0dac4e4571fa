import WideColumn.Collection.SortedMap
import WideColumn.Collection.SortedSet
import WideColumn.Number.Duration
import WideColumn.Schema.Table
import WideColumn.Spec.Clause

/-!
Writes before compilation: what is assigned, how collections are modified, and where.
-/
namespace WideColumn

structure Write where
  table : TableId
  keys : SortedMap String Value := .empty
  conditions : List Clause := []
  values : SortedMap String Value := .empty
  setAdds : SortedMap String (SortedSet Value) := .empty
  setRemoves : SortedMap String (SortedSet Value) := .empty
  listPrepends : SortedMap String (List Value) := .empty
  listAppends : SortedMap String (List Value) := .empty
  listRemoves : SortedMap String (List Value) := .empty
  mapPuts : SortedMap String (SortedMap Value Value) := .empty
  onlyIf : List Clause := []
  ifNotExists : Bool := false
  ttl : Option Duration := none
  deriving DecidableEq

namespace Write

/-- The ways to refine a write. -/
inductive Step
  | key (name : String) (value : Value)
  | condition (clause : Clause)
  | value (name : String) (value : Value)
  | values (entries : List (String × Value))
  | without (name : String)
  | addToSet (name : String) (value : Value)
  | removeFromSet (name : String) (value : Value)
  | prepend (name : String) (value : Value)
  | append (name : String) (value : Value)
  | removeFromList (name : String) (value : Value)
  | put (name : String) (key value : Value)
  | onlyIf (clause : Clause)
  | ifNotExists
  | ttl (span : Duration)
  deriving DecidableEq

def member (v : Value) (s : Option (SortedSet Value)) : SortedSet Value :=
  (s.getD .empty).insert v

def last (v : Value) (l : Option (List Value)) : List Value := l.getD [] ++ [v]

def apply (w : Write) : Step → Write
  | .key n v => { w with keys := w.keys.insert n v }
  | .condition c => { w with conditions := w.conditions ++ [c] }
  | .value n v => { w with values := w.values.insert n v }
  | .values es => { w with values := es.foldl (fun m e => m.insert e.1 e.2) w.values }
  | .without n => { w with values := w.values.erase n }
  | .addToSet n v => { w with setAdds := w.setAdds.update n (member v) }
  | .removeFromSet n v => { w with setRemoves := w.setRemoves.update n (member v) }
  | .prepend n v => { w with listPrepends := w.listPrepends.update n (last v) }
  | .append n v => { w with listAppends := w.listAppends.update n (last v) }
  | .removeFromList n v => { w with listRemoves := w.listRemoves.update n (last v) }
  | .put n k v => { w with mapPuts := w.mapPuts.update n fun m => (m.getD .empty).insert k v }
  | .onlyIf c => { w with onlyIf := w.onlyIf ++ [c] }
  | .ifNotExists => { w with ifNotExists := true }
  | .ttl span => { w with ttl := some span }

def applyAll (w : Write) (steps : List Step) : Write := steps.foldl apply w

/-- The write modifies some collection instead of assigning it. -/
def hasDeltas (w : Write) : Bool :=
  !(w.setAdds.isEmpty && w.setRemoves.isEmpty && w.listPrepends.isEmpty && w.listAppends.isEmpty &&
    w.listRemoves.isEmpty && w.mapPuts.isEmpty)

/-- The columns that the write touches outside of its keys, once for each way it touches them. -/
def mutated (w : Write) : List String :=
  w.values.keys ++ w.setAdds.keys ++ w.setRemoves.keys ++ w.listPrepends.keys ++
    w.listAppends.keys ++ w.listRemoves.keys ++ w.mapPuts.keys

/-- The write is aimed at rows that exist and not at making one. -/
def isUpdateIntent (w : Write) : Bool :=
  !w.ifNotExists && (!w.keys.isEmpty || !w.conditions.isEmpty)

end Write
end WideColumn
