import WideColumn.Spec.Mutation
import WideColumn.Spec.Read

/-!
Everything that can be compiled into a statement.
-/
namespace WideColumn

inductive Specification
  | mutation (m : Mutation)
  | read (r : Read)
  deriving DecidableEq

end WideColumn
