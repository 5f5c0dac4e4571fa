import WideColumn.Engine.Blocking
import WideColumn.Engine.Concurrent
import WideColumn.Scenario.Setting
import WideColumn.Text.Shown

/-!
Sessions with an engine over a scripted store, step by step, and what can be seen of each step.
-/
namespace WideColumn

/-- What a step shows beside its result. -/
structure Glimpse where
  /-- What was asked of the store, oldest first. -/
  events : List Event
  tables : Nat
  statements : Nat
  refreshes : Nat

namespace Glimpse

/-- Requests to the store; what happens within the engine does not show. -/
def shows : Event → Bool
  | .metadataDropped | .statementsDropped => false
  | _ => true

def ofWorld (w : World σ) : Glimpse where
  events := (w.trace.map Prod.snd).filter shows
  tables := w.catalog.tables.size
  statements := w.statements.size
  refreshes := w.catalog.refreshesStarted

end Glimpse

namespace World

/-- One step: a refresh that it starts runs to its end before the step is looked at. -/
def step (action : StateM (World Script) α) : StateM (World Script) (α × Glimpse) := do
  modify fun w => { w with trace := [] }
  let a ← action
  modify fun w => (Op.finishRefresh.run w).2
  return (a, .ofWorld (← get))

end World

namespace Op

/-- Runs an operation for a caller that waits for it, if it may wait where it is. -/
def blocking (site : Option Site) (runtimeKnown : Bool) (op : Op Script α) : Op Script α := do
  match site with
  | some site => ofExcept (site.allow runtimeKnown)
  | none => pure ()
  op

end Op

/-- The engine as it shows itself: its keyspace and how many tables it has cached. -/
def World.describe (config : Config) (w : World σ) : String :=
  let keyspace := match config.defaultKeyspace with
    | some name => "Some(" ++ String.ofList (Text.shown name.toList) ++ ")"
    | none => "None"
  "Engine \x7b default_keyspace: " ++ keyspace ++ ", cached_tables: " ++
    toString w.catalog.tables.size ++ " \x7d"

end WideColumn
