import WideColumn.Config
import WideColumn.Store.Basic

/-!
The state an engine works on, and operations on it that may fail. A failed operation keeps what it
changed before it failed.
-/
namespace WideColumn

structure World (σ : Type) where
  store : σ
  /-- Milliseconds. -/
  clock : Nat := 0
  catalog : Catalog
  statements : Cache String Prepared
  /-- Events with their times, oldest first. -/
  trace : List (Nat × Event) := []

def World.new (config : Config) (store : σ) : World σ where
  store := store
  catalog := config.catalog
  statements := .ofCapacity config.statementCapacity

abbrev Op (σ : Type) := ExceptT Error (StateM (World σ))

/-- Where in the world a cache is kept. -/
structure Shelf (σ κ ν : Type) where
  get : World σ → Cache κ ν
  set : Cache κ ν → World σ → World σ

namespace Shelf

def tables : Shelf σ TableId TableEntry where
  get w := w.catalog.tables
  set c w := { w with catalog := { w.catalog with tables := c } }

def types : Shelf σ TypeName UserType where
  get w := w.catalog.types
  set c w := { w with catalog := { w.catalog with types := c } }

def statements : Shelf σ String Prepared where
  get w := w.statements
  set c w := { w with statements := c }

end Shelf

namespace Op

variable {σ : Type}

/-- As many as these that go on at once are watched as a whole, in order; of more, each is looked at
when its turn has come. -/
def watched : Nat := 30

/-- Runs an operation: its outcome, and the world it leaves. -/
def run (op : Op σ α) (w : World σ) : Except Error α × World σ :=
  Id.run (StateT.run (ExceptT.run op) w)

def ofExcept : Except Error α → Op σ α
  | .ok a => pure a
  | .error e => throw e

def now : Op σ Nat := return (← get).clock

def wait (ms : Nat) : Op σ Unit := modify fun w => { w with clock := w.clock + ms }

def log (e : Event) : Op σ Unit := modify fun w => { w with trace := w.trace ++ [(w.clock, e)] }

/-- One request to the store. -/
def ask (request : σ → Except Fault α × σ) (event : Except Fault α → Event) :
    Op σ (Except Fault α) := do
  let w ← get
  let (answer, store) := request w.store
  set { w with store, trace := w.trace ++ [(w.clock, event answer)] }
  return answer

/-- The answer to a request, a fault being an error of the operation. -/
def orFault : Except Fault α → Op σ α
  | .ok a => pure a
  | .error fault => throw (.transport fault)

/-- The value of a key, loaded if it is not cached. A failed load leaves the place empty. -/
def getOrLoad [DecidableEq κ] [Hashed κ] (shelf : Shelf σ κ ν) (k : κ) (load : Op σ ν) : Op σ ν := do
  let w ← get
  let (place, cache) := (shelf.get w).acquire k
  set (shelf.set cache w)
  match place.value with
  | some v => return v
  | none =>
    let v ← load
    modify fun w => shelf.set ((shelf.get w).settle place.slot v) w
    return v

end Op
end WideColumn
