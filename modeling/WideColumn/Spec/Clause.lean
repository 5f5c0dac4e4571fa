import WideColumn.Value.Order

/-!
Relations on one column, as callers state them.
-/
namespace WideColumn

inductive Comparison
  | eq | ne | lt | lte | gt | gte
  deriving DecidableEq, Inhabited

def Comparison.symbol : Comparison → String
  | eq => "="
  | ne => "!="
  | lt => "<"
  | lte => "<="
  | gt => ">"
  | gte => ">="

inductive Clause
  | compare (column : String) (comparison : Comparison) (value : Value)
  | isIn (column : String) (values : List Value)
  deriving DecidableEq, Inhabited

namespace Clause

def column : Clause → String
  | compare c _ _ => c
  | isIn c _ => c

def operator : Clause → String
  | compare _ op _ => op.symbol
  | isIn _ _ => "IN"

def values : Clause → List Value
  | compare _ _ v => [v]
  | isIn _ vs => vs

end Clause
end WideColumn
