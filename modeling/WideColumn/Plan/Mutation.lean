import WideColumn.Plan.Write
import WideColumn.Spec.Mutation

/-!
Plans for counter updates and deletions, and for mutations of any sort.
-/
namespace WideColumn

namespace CounterUpdate

def check (u : CounterUpdate) : Except Error Unit :=
  if u.keys.isEmpty && u.conditions.isEmpty then invalid .counterWithoutTarget else .ok ()

def plan (u : CounterUpdate) (b : Binder) : Except Error Plan := do
  let c ← b.column u.column
  if !c.type.isCounter then
    throw (.typeMismatch u.table.display u.column "counter" c.type.toText)
  let relations ← b.relations u.keys u.conditions
  let binding := if u.conditions.isEmpty then .markers else .literals
  return .of (.counter ⟨u.table, u.column, u.delta, relations⟩) binding none

end CounterUpdate

namespace Deletion

def check (d : Deletion) : Except Error Unit :=
  if d.keys.isEmpty && d.conditions.isEmpty then invalid .deleteWithoutTarget
  else if d.ifExists && !d.onlyIf.isEmpty then invalid .ifExistsWithOnlyIf
  else .ok ()

def plan (d : Deletion) (b : Binder) : Except Error Plan := do
  let relations ← b.relations d.keys d.conditions
  let onlyIf ← d.onlyIf.mapM b.relation
  let binding :=
    if d.conditions.isEmpty && d.onlyIf.isEmpty && !d.ifExists then .markers else .literals
  return .of (.delete ⟨d.table, relations, d.ifExists, onlyIf⟩) binding none

end Deletion

namespace Mutation

def check : Mutation → Except Error Unit
  | write w => w.check
  | delete d => d.check
  | counter u => u.check

def plan : Mutation → Binder → Except Error Plan
  | write w => w.plan
  | delete d => d.plan
  | counter u => u.plan

end Mutation
end WideColumn
