import WideColumn.Text.Extender
import WideColumn.Text.Unseen

/-!
Text between double quotes for a reader of messages: what would not be seen by itself is written by
its code point.
-/
namespace WideColumn.Text

def shownChar (c : Char) : List Char :=
  if c = '"' ∨ c = '\\' then ['\\', c]
  else if c = '\n' then ['\\', 'n']
  else if c = '\r' then ['\\', 'r']
  else if c = '\t' then ['\\', 't']
  else if c.toNat = 0 then ['\\', '0']
  else if isExtender c || isUnseen c then ['\\', 'u', '\x7b'] ++ Nat.toDigits 16 c.toNat ++ ['\x7d']
  else [c]

def shown (cs : List Char) : List Char := '"' :: cs.flatMap shownChar ++ ['"']

end WideColumn.Text
