/-!
Conditions under which the store applies a mutation.
-/
namespace WideColumn

inductive Guard
  | none | ifNotExists | ifExists | onlyIf
  deriving DecidableEq, Inhabited

/-- What is reported when the condition did not hold. -/
def Guard.rejection : Guard → Option String
  | none => Option.none
  | ifNotExists => some "duplicated entry"
  | ifExists => some "entry does not exist"
  | onlyIf => some "if condition does not match"

end WideColumn
