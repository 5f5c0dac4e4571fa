import WideColumn.Engine.Compile
import WideColumn.Statement.Batch

/-!
Sending statements. A fault that means out-of-date metadata drops the caches and is still reported to
the caller; nothing is sent twice.
-/
namespace WideColumn.Op

variable {σ : Type} [Store σ]

/-- Prepared statements go whenever the metadata goes. -/
def invalidateCaches : Op σ Unit := do
  if ← invalidateMetadata then invalidateStatements

def dispatch (request : Request) (options : Options) : Op σ Page := do
  match ← ask (Store.execute request options) (.execute request options) with
  | .ok page => return page
  | .error fault =>
    if fault.isSchemaFault then invalidateCaches
    throw (.transport fault)

/-- A guarded submission that was not applied fails with its guard's message. -/
def submit (s : Submission) : Op σ ResultMeta := do
  let page ← dispatch s.request s.options
  if !page.applied then
    match s.guard.rejection with
    | some rejection => throw (.constraint (.notApplied rejection))
    | none => pure ()
  return .ofPage page

end WideColumn.Op
