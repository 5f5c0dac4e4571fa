import WideColumn.Engine.World

/-!
The background refresh of cached tables. It goes from question to question to the store, and other
work may go on between a question and the use of its answer.
-/
namespace WideColumn

/-- A refresh that has asked about a table, and has others to ask about. -/
structure Visit where
  table : TableId
  answer : Except Fault (Option Table)
  later : List TableId

namespace Op

variable {σ : Type} [Store σ]

def askAbout (id : TableId) : Op σ (Except Fault (Option Table)) :=
  ask (Store.describeTable id) (.describeTable id)

/-- Keeps what the store has answered about a table; a fault leaves the old entry. -/
def keepAnswer (id : TableId) (answer : Except Fault (Option Table)) : Op σ Unit :=
  modify fun w => { w with catalog := w.catalog.refreshed id w.clock answer }

def endRefresh : Op σ Unit :=
  modify fun w => { w with catalog := w.catalog.release }

/-- Asks about the next table. With none left the refresh ends. -/
def visitNext : List TableId → Op σ (Option Visit)
  | [] => do
    endRefresh
    return none
  | id :: later => return some ⟨id, ← askAbout id, later⟩

/-- Uses the answer to the last question and asks the next one. A refresh that has been started and
has not asked yet settles now what it visits. -/
def advanceRefresh : Option Visit → Op σ (Option Visit)
  | some v => do
    keepAnswer v.table v.answer
    visitNext v.later
  | none => do
    let w ← get
    if w.catalog.refreshing then visitNext (w.catalog.stale w.clock) else return none

/-- Asks about all tables, every answer being there at once. -/
def visitAll : List TableId → Op σ Unit
  | [] => endRefresh
  | id :: later => do
    keepAnswer id (← askAbout id)
    visitAll later

/-- Runs the refresh, if one is under way, from where it stands to its end. -/
def finishVisit : Option Visit → Op σ Unit
  | some v => do
    keepAnswer v.table v.answer
    visitAll v.later
  | none => do
    let w ← get
    if w.catalog.refreshing then visitAll (w.catalog.stale w.clock)

/-- Runs the refresh that has been started, if any, to its end. -/
def finishRefresh : Op σ Unit := finishVisit none

end Op
end WideColumn
