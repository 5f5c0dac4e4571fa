import WideColumn.Cache.Traffic
import WideColumn.Engine.Compile
import WideColumn.Engine.Refresh

/-!
Many calls at once. They are polled in turn, all of them at one time, and then again when the store
has answered; those that miss the same place of a cache share one load. A refresh that they start
runs beside them.
-/
namespace WideColumn

/-- A request for something that is cached. -/
inductive Call
  | prepare (text : String)
  | getColumns (id : TableId)
  | getType (name : TypeName)
  deriving DecidableEq

inductive Reply
  | prepared (statement : Prepared)
  | columns (entry : TableEntry)
  | type (definition : UserType)
  deriving DecidableEq

/-- The callers' common state: the world, who loads and waits at which place of each cache, what those
who waited have been served, and the refresh that runs beside them. -/
structure Crowd (σ : Type) where
  world : World σ
  tables : List Flight := []
  types : List Flight := []
  statements : List Flight := []
  served : List (Nat × Op σ Reply) := []
  visit : Option Visit := none

/-- Where a caller stands. -/
inductive Progress (σ : Type)
  | arriving
  | waiting
  /-- The store has been asked; what is left is to look at its answer. -/
  | loading (finish : StateM (Crowd σ) (Except Error Reply))
  | done (reply : Except Error Reply)

namespace Progress

def reply? : Progress σ → Option (Except Error Reply)
  | done reply => some reply
  | _ => none

def isLoading : Progress σ → Bool
  | loading _ => true
  | _ => false

end Progress

structure Caller (σ : Type) where
  /-- The position of the call among all. -/
  index : Nat
  call : Call
  progress : Progress σ

/-- One of the caches with the way a value for it is loaded. -/
structure Lane (σ κ ν : Type) where
  shelf : Shelf σ κ ν
  flights : Crowd σ → List Flight
  setFlights : List Flight → Crowd σ → Crowd σ
  /-- Asks the store, and leaves to be done what follows its answer. -/
  load : κ → Op σ (Op σ ν)
  reply : ν → Op σ Reply

namespace Lane

variable {σ κ ν : Type}

def traffic (l : Lane σ κ ν) (c : Crowd σ) : Traffic κ ν := ⟨l.shelf.get c.world, l.flights c⟩

def setTraffic (l : Lane σ κ ν) (t : Traffic κ ν) (c : Crowd σ) : Crowd σ :=
  l.setFlights t.flights { c with world := l.shelf.set t.cache c.world }

end Lane

namespace Crowd

variable {σ κ ν : Type} [DecidableEq κ] [Hashed κ]

def perform (op : Op σ α) : StateM (Crowd σ) (Except Error α) := do
  let c ← get
  let (outcome, world) := op.run c.world
  set { c with world }
  return outcome

/-- A load has ended: its value goes to all who are at the place, a failure to the loader alone. -/
def settle (l : Lane σ κ ν) (slot : Nat) : Except Error ν → StateM (Crowd σ) (Except Error Reply)
  | .ok v => do
    let c ← get
    let (callers, traffic) := (l.traffic c).succeed slot v
    set { l.setTraffic traffic c with served := c.served ++ callers.map (·, l.reply v) }
    perform (l.reply v)
  | .error e => do
    modify fun c => l.setTraffic ((l.traffic c).fail slot) c
    return .error e

/-- Starts the load of a place. An answer that takes no time is looked at at once. -/
def start (l : Lane σ κ ν) (delay : Nat) (k : κ) (slot : Nat) : StateM (Crowd σ) (Progress σ) := do
  modify fun c => l.setTraffic ((l.traffic c).begin slot) c
  let finish := match ← perform (l.load k) with
    | .ok rest => do settle l slot (← perform rest)
    | .error e => settle l slot (.error e)
  if delay = 0 then return .done (← finish) else return .loading finish

def arrive (l : Lane σ κ ν) (delay caller : Nat) (k : κ) : StateM (Crowd σ) (Progress σ) := do
  let c ← get
  let (arrival, traffic) := (l.traffic c).lookUp caller k
  set (l.setTraffic traffic c)
  match arrival with
  | .served v => return .done (← perform (l.reply v))
  | .loads slot => start l delay k slot
  | .waits _ => return .waiting

/-- A caller who waits goes on if it has been served, or if the turn to load has passed to it. -/
def resume (l : Lane σ κ ν) (delay caller : Nat) (k : κ) : StateM (Crowd σ) (Progress σ) := do
  let c ← get
  match c.served.lookup caller with
  | some reply => return .done (← perform reply)
  | none =>
    match (l.flights c).find? fun f => f.loader = caller ∧ !f.running with
    | some f => start l delay k f.slot
    | none => return .waiting

def poll (l : Lane σ κ ν) (delay caller : Nat) (k : κ) :
    Progress σ → StateM (Crowd σ) (Progress σ)
  | .arriving => arrive l delay caller k
  | .waiting => resume l delay caller k
  | .loading finish => return .done (← finish)
  | .done reply => return .done reply

end Crowd

namespace Lane

variable {σ : Type} [Store σ]

def statements : Lane σ String Prepared where
  shelf := .statements
  flights := Crowd.statements
  setFlights fs c := { c with statements := fs }
  load text := return Op.orFault (← Op.ask (Store.prepare text) (.prepare text))
  reply s := return .prepared s

def tables : Lane σ TableId TableEntry where
  shelf := .tables
  flights := Crowd.tables
  setFlights fs c := { c with tables := fs }
  load id := return Op.tableEntry id (← Op.ask (Store.describeTable id) (.describeTable id))
  reply entry := return .columns (← Op.serve entry)

def types : Lane σ TypeName UserType where
  shelf := .types
  flights := Crowd.types
  setFlights fs c := { c with types := fs }
  load name := return Op.knownType name (← Op.ask (Store.describeType name) (.describeType name))
  reply type := return .type type

end Lane

namespace Crowd

variable {σ : Type} [Store σ]

def pollCall (delay caller : Nat) : Call → Progress σ → StateM (Crowd σ) (Progress σ)
  | .prepare text => poll .statements delay caller text
  | .getColumns id => poll .tables delay caller id
  | .getType name => poll .types delay caller name

/-- Polls every caller once, in order. -/
def pollAll (delay : Nat) : List (Caller σ) → StateM (Crowd σ) (List (Caller σ))
  | [] => return []
  | k :: rest => do
    let progress ← pollCall delay k.index k.call k.progress
    return { k with progress } :: (← pollAll delay rest)

/-- The order of the next round. Many callers are polled as they wake: those who load, in the order
in which they began, then those who take their turns over, in the order of the former. -/
def inTurn (c : Crowd σ) (callers : List (Caller σ)) : List (Caller σ) :=
  if callers.length ≤ Op.watched then callers
  else
    let flights := c.tables ++ c.types ++ c.statements
    let (loading, others) := callers.partition (·.progress.isLoading)
    let next := loading.filterMap fun k =>
      (flights.find? (·.loader = k.index)).bind (·.waiting.head?)
    loading ++ next.filterMap (fun i => others.find? (·.index = i)) ++
      others.filter (!next.contains ·.index)

/-- The refresh goes on while the callers wait. -/
def refresh : StateM (Crowd σ) Unit := do
  let c ← get
  let (outcome, world) := (Op.advanceRefresh c.visit).run c.world
  set { c with world, visit := outcome.toOption.join }

/-- Time passes until the answers of the store are there. -/
def wait (delay : Nat) : StateM (Crowd σ) Unit :=
  modify fun c => { c with world := { c.world with clock := c.world.clock + delay } }

/-- Polls until all are done; each round ends at least one call. -/
def rounds (delay : Nat) : Nat → List (Caller σ) → StateM (Crowd σ) (List (Caller σ))
  | 0, callers => return callers
  | bound + 1, callers => do
    let callers ← pollAll delay callers
    if callers.all (·.progress.reply?.isSome) then return callers
    else
      refresh
      wait delay
      rounds delay bound (inTurn (← get) callers)

end Crowd

namespace Op

variable {σ : Type} [Store σ]

/-- Calls that start together, each answer of the store taking `delay`. When they are done, a refresh
that runs beside them goes on without delays. -/
def together (calls : List Call) (delay : Nat) : Op σ (List (Except Error Reply)) := do
  let (callers, crowd) :=
    (Crowd.rounds delay (calls.length + 1) (calls.zipIdx.map fun c => ⟨c.2, c.1, .arriving⟩)).run
      { world := ← get }
  set crowd.world
  finishVisit crowd.visit
  let callers := callers.mergeSort fun k l => k.index ≤ l.index
  return callers.filterMap (·.progress.reply?)

end Op
end WideColumn
