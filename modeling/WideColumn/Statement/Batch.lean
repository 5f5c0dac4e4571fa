import WideColumn.Error
import WideColumn.Spec.Context
import WideColumn.Statement.Compiled

/-!
Mutations merged into one atomic batch, and what can be sent in one round trip.
-/
namespace WideColumn

structure Batch where
  kind : BatchKind
  statements : List Compiled
  options : Options
  deriving DecidableEq

namespace Batch

/-- The guard of the first guarded member: the batch applies or fails as a whole. -/
def guard (b : Batch) : Guard :=
  ((b.statements.map Compiled.guard).find? (· ≠ .none)).getD .none

def request (b : Batch) : Request := .batch b.kind (b.statements.map Compiled.wire)

/-- The kind of a batch. Counter updates stand alone in a counter batch; other mutations are logged
unless it is asked otherwise. -/
def kindFor (statements : List Compiled) (asked : Option BatchKind) : Except Error BatchKind :=
  let counters := statements.countP Compiled.isCounter
  if counters = statements.length then
    match asked with
    | none | some .counter => .ok .counter
    | some other => invalid (.counterBatchKind other)
  else if 0 < counters then invalid .mixedCounters
  else match asked with
    | some .counter => invalid .counterBatchWithoutCounters
    | some other => .ok other
    | none => .ok .logged

def assemble (statements : List Compiled) (asked : Option BatchKind) (ctx : Context) :
    Except Error Batch := do
  if statements.isEmpty then invalid .emptyBatch
  match statements.find? (!·.isMutation) with
  | some read => invalid (.readInBatch read.table)
  | none => return ⟨← kindFor statements asked, statements, ctx.options⟩

end Batch

inductive Submission
  | statement (c : Compiled)
  | batch (b : Batch)
  deriving DecidableEq

namespace Submission

def request : Submission → Request
  | statement c => .statement c.wire
  | batch b => b.request

def options : Submission → Options
  | statement c => c.options
  | batch b => b.options

def guard : Submission → Guard
  | statement c => c.guard
  | batch b => b.guard

end Submission
end WideColumn
