import WideColumn.Dao.Basic
import WideColumn.Document.Value
import WideColumn.Interceptor.Constraints
import WideColumn.Scenario.Script
import WideColumn.Schema.TableName

/-!
Named access objects with scripted interceptors, and mutations drafted through them.
-/
namespace WideColumn

/-- How a mutation is drafted through an access object. -/
inductive Opening
  | write
  | writeWithKeys (keys : List (String × Value))
  | writeWhere (clause : Clause)
  | deleteWithKeys (keys : List (String × Value))
  | deleteWhere (clause : Clause)
  deriving DecidableEq

/-- What is done to a draft. -/
inductive Refinement
  | write (step : Write.Step)
  | deletion (step : Deletion.Step)
  | context (step : Context.Step)
  /-- Turns a write into a counter update. -/
  | incrBy (column : String) (delta : Int64)
  | decrBy (column : String) (delta : Int64)
  deriving DecidableEq

/-- A mutation to be made: ready, or to be drafted through a named access object. -/
inductive Entry
  | ready (mutation : Mutation)
  | drafted (dao : String) (opening : Opening) (refinements : List Refinement)
  deriving DecidableEq

/-- Values and keys of the request that triggers a cascade. -/
structure Trigger where
  values : SortedMap String Value
  keys : SortedMap String Value

namespace Trigger

def ofWrite (w : Write) : Trigger := ⟨w.values, w.keys⟩

def ofDeletion (d : Deletion) : Trigger := ⟨.empty, d.keys⟩

/-- What is missing is null. -/
def value (t : Trigger) (column : String) : Value := (t.values.get? column).getD .null

def key (t : Trigger) (column : String) : Value := (t.keys.get? column).getD .null

mutual
/-- Puts values of the request where a document asks for them by column. -/
def fill (t : Trigger) : Document → Document
  | .fields [("$value", .text column)] => (t.value column).toDocument
  | .fields [("$key", .text column)] => (t.key column).toDocument
  | .fields es => .fields (t.fillFields es)
  | .list ds => .list (t.fillItems ds)
  | d => d

def fillItems (t : Trigger) : List Document → List Document
  | [] => []
  | d :: ds => t.fill d :: t.fillItems ds

def fillFields (t : Trigger) : List (String × Document) → List (String × Document)
  | [] => []
  | (name, d) :: es => (name, t.fill d) :: t.fillFields es
end

end Trigger

/-- A change to the rows of a read and to its result. -/
inductive RowAction
  | append (cells : List (String × Datum))
  | keepNonNull (column : String)
  | take (n : Nat)
  | defaultResult
  deriving DecidableEq

def RowAction.apply (state : List Record × ResultMeta) : RowAction → List Record × ResultMeta
  | append cells => (state.1 ++ [.ofPairs cells], state.2)
  | keepNonNull column => (state.1.filter fun r => (r.value? column).isSome, state.2)
  | take n => (state.1.take n, state.2)
  | defaultResult => (state.1, {})

/-- An interceptor that does as it has been told: it fails, or makes its changes. One with a
condition lets writes pass that do not assign the column. -/
inductive Behaviour
  | constraints (c : Constraints)
  | write (condition : Option String) (failure : Option Error) (steps : List Write.Step)
  | deletion (failure : Option Error) (steps : List Deletion.Step)
  | read (failure : Option Error) (steps : List Read.Step)
  | rows (failure : Option Error) (actions : List RowAction)
  | cascadeOnWrite (condition : Option String) (delay : Nat) (failure : Option Error)
      (emit : Trigger → List Entry)
  | cascadeOnDelete (delay : Nat) (failure : Option Error) (emit : Trigger → List Entry)

namespace Behaviour

def orFail (failure : Option Error) (a : α) : Except Error α :=
  match failure with
  | some e => .error e
  | none => .ok a

/-- A write without the column that is the condition is none of the interceptor's business. -/
def passes (condition : Option String) (w : Write) : Bool :=
  condition.any fun column => !w.values.contains column

def editRows (failure : Option Error) (actions : List RowAction) (rows : Rows) : Op Script Rows := do
  Op.ofExcept (orFail failure ())
  let records ← rows.collect
  let (records, result) := actions.foldl RowAction.apply (records, rows.result)
  return .ofRecords records result

/-- What is produced after the delay. -/
def cascade (delay : Nat) (failure : Option Error)
    (member : Entry → Except Error (Member String)) (entries : List Entry) :
    Timed (List (Member String)) :=
  ⟨delay, do orFail failure (); entries.mapM member⟩

def cascadeOf (condition : Option String) (delay : Nat) (failure : Option Error)
    (emit : Trigger → List Entry) (member : Entry → Except Error (Member String)) (w : Write) :
    Timed (List (Member String)) :=
  if passes condition w then ⟨0, .ok []⟩ else cascade delay failure member (emit (.ofWrite w))

def registry (member : Entry → Except Error (Member String)) : Behaviour → Registry Script String
  | constraints c => { onWrite := [c.intercept] }
  | write condition failure steps =>
    { onWrite := [fun w => if passes condition w then .ok w else orFail failure (w.applyAll steps)] }
  | deletion failure steps => { onDelete := [fun d => orFail failure (d.applyAll steps)] }
  | read failure steps => { onRead := [fun r => orFail failure (r.applyAll steps)] }
  | rows failure actions => { onRows := [fun _ => editRows failure actions] }
  | cascadeOnWrite condition delay failure emit =>
    { cascadesOnWrite := [cascadeOf condition delay failure emit member] }
  | cascadeOnDelete delay failure emit =>
    { cascadesOnDelete := [fun d => cascade delay failure member (emit (.ofDeletion d))] }

end Behaviour

/-- An access object by definition; it may take over the interceptors of another. -/
structure Access where
  table : String
  steps : List Context.Step := []
  share : Option String := none
  behaviours : List Behaviour := []

structure Setting where
  config : Config
  accesses : List (String × Access)

namespace Setting

/-- A name without a definition is the name of a table. -/
def access (s : Setting) (name : String) : Access :=
  (s.accesses.lookup name).getD { table := name }

/-- The table of an access object. Those that it takes interceptors from have to be sound too. -/
def tableWithin (s : Setting) : (depth : Nat) → String → Except Error TableId
  | 0, name => TableId.parse (s.access name).table s.config.defaultKeyspace
  | depth + 1, name => do
    let table ← TableId.parse (s.access name).table s.config.defaultKeyspace
    match (s.access name).share with
    | some other => let _ ← s.tableWithin depth other
    | none => pure ()
    return table

def depth (s : Setting) : Nat := s.accesses.length

def dao (s : Setting) (name : String) : Except Error (Dao String) := do
  let table ← s.tableWithin s.depth name
  return ⟨table, (s.access name).steps.foldl Context.apply (Dao.contextOf s.config), some name⟩

def refine (d : Draft String Mutation) : Refinement → Draft String Mutation
  | .write step => d.refine fun
    | .write w => .write (w.apply step)
    | other => other
  | .deletion step => d.refine fun
    | .delete deletion => .delete (deletion.apply step)
    | other => other
  | .context step => d.configure step
  | .incrBy column delta => d.refine fun
    | .write w => .counter (.ofWrite w column delta)
    | other => other
  | .decrBy column delta => d.refine fun
    | .write w => .counter (.ofWrite w column (Draft.saturatingNeg delta))
    | other => other

def opened (d : Dao String) : Opening → Draft String Mutation
  | .write => ⟨d.write.owner, d.write.ctx, .write d.write.spec⟩
  | .writeWithKeys keys => d.draft (.write (d.writeWithKeys keys).spec)
  | .writeWhere clause => d.draft (.write (d.writeWhere clause).spec)
  | .deleteWithKeys keys => d.draft (.delete (d.deleteWithKeys keys).spec)
  | .deleteWhere clause => d.draft (.delete (d.deleteWhere clause).spec)

/-- A ready mutation has no interceptors and no options of its own. -/
def draft (s : Setting) : Entry → Except Error (Draft String Mutation)
  | .ready mutation => .ok ⟨none, {}, mutation⟩
  | .drafted name opening refinements =>
    (s.dao name).map fun d => refinements.foldl refine (opened d opening)

def member (s : Setting) (e : Entry) : Except Error (Member String) :=
  (s.draft e).map (·.member id)

/-- The interceptors taken over come before those of the object itself. -/
def registryWithin (s : Setting) : (depth : Nat) → String → Registry Script String
  | depth, name =>
    let own := (s.access name).behaviours.foldl (fun r b => r.append (b.registry s.member)) {}
    match depth, (s.access name).share with
    | depth + 1, some other => (s.registryWithin depth other).append own
    | _, _ => own

def registry (s : Setting) (name : String) : Registry Script String :=
  s.registryWithin s.depth name

/-- A batch of several mutations, with the options of the first. -/
def batch (s : Setting) (entries : List Entry) : Except Error (BatchDraft String) := do
  let drafts ← entries.mapM s.draft
  return { members := drafts.map (·.member id), ctx := ((drafts.map Draft.ctx).head?).getD {} }

end Setting
end WideColumn
