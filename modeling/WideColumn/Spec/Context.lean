import WideColumn.Store.Request

/-!
Options that come from the place of a call and not from the statement.
-/
namespace WideColumn

structure Context where
  consistency : Option Consistency := none
  serialConsistency : Option Consistency := none
  tracing : Bool := false
  deriving DecidableEq, Inhabited

namespace Context

inductive Step
  | consistency (level : Consistency)
  | serialConsistency (level : Consistency)
  | tracing (on : Bool)
  deriving DecidableEq

def apply (ctx : Context) : Step → Context
  | .consistency level => { ctx with consistency := some level }
  | .serialConsistency level => { ctx with serialConsistency := some level }
  | .tracing on => { ctx with tracing := on }

def options (ctx : Context) : Options where
  consistency := ctx.consistency
  serialConsistency := ctx.serialConsistency
  tracing := ctx.tracing

end Context
end WideColumn
