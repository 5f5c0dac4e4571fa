import WideColumn.Plan.Basic
import WideColumn.Spec.Read

/-!
Plans for reads. Their values are always sent beside the text; only reads by key are prepared.
-/
namespace WideColumn.Read

def projection (r : Read) (b : Binder) : Except Error (Option (List (String × Bool))) :=
  match r.columns with
  | none => .ok none
  | some columns => do
    for (name, _) in columns.toList do
      let _ ← b.column name
    return some columns.toList

/-- An equation for a key with one value, a membership for a key with more. -/
def keyRelation (b : Binder) : String × List Value → Except Error Relation
  | (name, []) => invalid (.emptyKey name)
  | (name, [v]) => return .compare name .eq (← b.bind name v)
  | (name, vs) => return .isIn name (← vs.mapM (b.bind name))

def limitOption : Option Nat → Except Error (Option Int32)
  | none => .ok none
  | some n =>
    if n = 0 then invalid .limitZero
    else if n < 0x8000_0000 then .ok (some (.ofNat n))
    else invalid (.limitOutOfRange n)

def selection (r : Read) (b : Binder) : Except Error Selection := do
  let projection ← r.projection b
  let keys ← r.keys.toList.mapM (keyRelation b)
  let conditions ← r.conditions.mapM b.relation
  let limit ← limitOption r.limit
  return ⟨r.table, r.distinct, projection, keys ++ conditions, limit, r.allowFiltering⟩

def plan (r : Read) (b : Binder) : Except Error Plan := do
  return {
    statement := .select (← r.selection b)
    binding := .markers
    prepare := r.conditions.isEmpty
    fetchSize := r.fetchSize }

end WideColumn.Read
