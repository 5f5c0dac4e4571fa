import WideColumn.Engine.Metadata
import WideColumn.Plan.Mutation
import WideColumn.Plan.Read
import WideColumn.Spec.Context
import WideColumn.Spec.Specification
import WideColumn.Statement.Compiled

/-!
Compilation: a specification is checked, planned against the metadata of its table, and its text
prepared once for all statements with that text.
-/
namespace WideColumn.Op

variable {σ : Type} [Store σ]

def prepare (text : String) : Op σ Prepared :=
  getOrLoad .statements text do orFault (← ask (Store.prepare text) (.prepare text))

/-- What is cached under a text; the store is not asked. -/
def cachedStatement (text : String) : Op σ (Option Prepared) := do
  let w ← get
  let (found, statements) := w.statements.get text
  set { w with statements }
  return found

def finish (p : Plan) (ctx : Context) : Op σ Compiled := do
  let prepared ← if p.prepare then some <$> prepare p.text else pure none
  return { plan := p, prepared, options := { ctx.options with fetchSize := p.fetchSize } }

def compileMutation (m : Mutation) (ctx : Context) : Op σ Compiled := do
  ofExcept m.check
  let b ← binder m.table
  finish (← ofExcept (m.plan b)) ctx

def compileRead (r : Read) (ctx : Context) : Op σ Compiled := do
  let b ← binder r.table
  finish (← ofExcept (r.plan b)) ctx

def compile : Specification → Context → Op σ Compiled
  | .mutation m, ctx => compileMutation m ctx
  | .read r, ctx => compileRead r ctx

end WideColumn.Op
