import WideColumn.Error
import WideColumn.Spec.Write

/-!
Columns that must be set and columns that must not change, checked on writes before they are compiled.
-/
namespace WideColumn

structure Constraints where
  notNull : SortedSet String := .empty
  immutable : SortedSet String := .empty
  deriving DecidableEq

namespace Constraints

/-- The write gives the column a value, plainly, as a key, or by adding to a collection. -/
def isSet (w : Write) (column : String) : Bool :=
  let assigned := match w.values.get? column with
    | some v => some v
    | none => w.keys.get? column
  assigned.any (!·.isNull) || w.setAdds.contains column || w.listAppends.contains column ||
    w.listPrepends.contains column || w.mapPuts.contains column

/-- The first thing a write does against the constraints. -/
def refusal? (c : Constraints) (w : Write) : Option Refusal :=
  if w.isUpdateIntent then
    match w.mutated.find? c.immutable.contains with
    | some column => some (.immutable column)
    | none =>
      let nulled := (w.values.toList.filter fun e => e.2.isNull && c.notNull.contains e.1).map Prod.fst
      if nulled.isEmpty then none else some (.notNull nulled)
  else
    let missing := c.notNull.toList.filter fun column => !isSet w column
    if missing.isEmpty then none else some (.notNull missing)

/-- The constraints as an interceptor: the write itself, if nothing speaks against it. -/
def intercept (c : Constraints) (w : Write) : Except Error Write :=
  match c.refusal? w with
  | some refusal => .error (.constraint refusal)
  | none => .ok w

end Constraints
end WideColumn
