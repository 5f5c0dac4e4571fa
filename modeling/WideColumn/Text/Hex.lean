/-!
Hexadecimal text of bytes and of numbers of a fixed width, written in lower case.
-/
namespace WideColumn.Hex

/-- The `width` low hexadecimal digits of a number, highest first. -/
def digits : Nat → Nat → List Char
  | 0, _ => []
  | width + 1, n => digits width (n / 16) ++ [Nat.digitChar (n % 16)]

def encode (bytes : List UInt8) : List Char :=
  bytes.flatMap fun b => digits 2 b.toNat

/-- Digits above nine may be of either case. -/
def digit? (c : Char) : Option Nat :=
  if '0' ≤ c ∧ c ≤ '9' then some (c.toNat - 48)
  else if 'a' ≤ c ∧ c ≤ 'f' then some (c.toNat - 87)
  else if 'A' ≤ c ∧ c ≤ 'F' then some (c.toNat - 55)
  else none

def number? (cs : List Char) : Option Nat :=
  cs.foldlM (fun n c => (digit? c).map (16 * n + ·)) 0

def decode? : List Char → Option (List UInt8)
  | [] => some []
  | [_] => none
  | c :: d :: cs => do return .ofNat (← number? [c, d]) :: (← decode? cs)

@[simp] theorem length_digits (width n : Nat) : (digits width n).length = width := by
  induction width generalizing n with
  | zero => rfl
  | succ w ih => simp [digits, ih]

@[simp] theorem encode_cons (b : UInt8) (bytes : List UInt8) :
    encode (b :: bytes) = digits 2 b.toNat ++ encode bytes := by
  simp [encode]

end WideColumn.Hex
