import WideColumn.Plan.Basic
import WideColumn.Store.Request

/-!
Statements ready to be sent.
-/
namespace WideColumn

structure Compiled where
  plan : Plan
  prepared : Option Prepared
  options : Options
  deriving DecidableEq

namespace Compiled

def statement (c : Compiled) : Statement := c.plan.statement

def table (c : Compiled) : TableId := c.statement.table

def kind (c : Compiled) : StatementKind := c.statement.kind

def guard (c : Compiled) : Guard := c.statement.guard

def text (c : Compiled) : String := c.plan.text

def values (c : Compiled) : List Datum := c.plan.values

def isCounter (c : Compiled) : Bool := c.kind = .counter

def isMutation (c : Compiled) : Bool := c.kind ≠ .select

/-- A prepared statement goes under the text the store prepared. -/
def wire (c : Compiled) : WireStatement where
  text := (c.prepared.map Prepared.text).getD c.text
  prepared := c.prepared
  values := c.values

end Compiled
end WideColumn
