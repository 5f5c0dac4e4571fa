import WideColumn.Text.Hex

/-!
128-bit identifiers and their hyphenated text.
-/
namespace WideColumn

structure Uuid where
  value : BitVec 128
  deriving DecidableEq, Inhabited

namespace Uuid

/-- Lower-case digits in groups of 8, 4, 4, 4 and 12. -/
def render (u : Uuid) : List Char :=
  let group (width drop : Nat) := Hex.digits width (u.value.toNat >>> (4 * drop))
  group 8 24 ++ '-' :: group 4 20 ++ '-' :: group 4 16 ++ '-' :: group 4 12 ++ '-' :: group 12 0

def toText (u : Uuid) : String := String.ofList u.render

/-- Reads the groups in either case. -/
def parse? (s : String) : Option Uuid :=
  let groups := s.toList.splitOn '-'
  if groups.map List.length = [8, 4, 4, 4, 12] then
    (Hex.number? groups.flatten).map fun n => ⟨.ofNat 128 n⟩
  else none

end Uuid
end WideColumn
