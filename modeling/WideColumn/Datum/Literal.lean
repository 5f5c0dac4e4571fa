import WideColumn.Datum.Basic
import WideColumn.Schema.Identifier

/-!
Store values written into statement text.
-/
namespace WideColumn

/-- A signed decimal number. -/
def signed : Int → List Char
  | .ofNat n => Nat.toDigits 10 n
  | .negSucc n => '-' :: Nat.toDigits 10 (n + 1)

namespace Datum

mutual
def literal : Datum → List Char
  | null => "null".toList
  | boolean b => (if b then "true" else "false").toList
  | int i => signed i.toInt
  | bigint i => signed i.toInt
  | float x => x.widen.literal
  | double x => x.literal
  | text s => Quoted.enclose '\'' s.toList
  | blob bs => '0' :: 'x' :: Hex.encode bs
  | timestamp ms => signed ms.toInt
  | uuid u => u.render
  | list items => '[' :: itemLiterals items ++ [']']
  | set items => '\x7b' :: itemLiterals items ++ ['\x7d']
  | map entries => '\x7b' :: entryLiterals entries ++ ['\x7d']
  | udt _ _ fields => '\x7b' :: fieldLiterals fields ++ ['\x7d']

/-- Items with a comma and a blank between them. -/
def itemLiterals : List Datum → List Char
  | [] => []
  | [v] => v.literal
  | v :: vs => v.literal ++ ',' :: ' ' :: itemLiterals vs

def entryLiterals : List (Datum × Datum) → List Char
  | [] => []
  | [(k, v)] => k.literal ++ ':' :: ' ' :: v.literal
  | (k, v) :: es => k.literal ++ ':' :: ' ' :: v.literal ++ ',' :: ' ' :: entryLiterals es

def fieldLiterals : List (String × Datum) → List Char
  | [] => []
  | [(n, v)] => Identifier.quote n ++ ':' :: ' ' :: v.literal
  | (n, v) :: es =>
    Identifier.quote n ++ ':' :: ' ' :: v.literal ++ ',' :: ' ' :: fieldLiterals es
end

end Datum
end WideColumn
