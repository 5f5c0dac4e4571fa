/-!
Spans of time and their text: the largest unit with a whole part, then the fraction without trailing
zeros.
-/
namespace WideColumn

structure Duration where
  nanos : Nat
  deriving DecidableEq, Inhabited

namespace Duration

def ofSeconds (n : Nat) : Duration := ⟨n * 1_000_000_000⟩

def ofMillis (n : Nat) : Duration := ⟨n * 1_000_000⟩

def seconds (d : Duration) : Nat := d.nanos / 1_000_000_000

/-- Nanoseconds beyond the whole seconds. -/
def subsecond (d : Duration) : Nat := d.nanos % 1_000_000_000

/-- `n` as a number of units of `10 ^ places`. -/
def inUnits (n places : Nat) (unit : String) : List Char :=
  let size := Nat.pow 10 places
  let digits := Nat.toDigits 10 (n % size)
  let fraction := List.replicate (places - digits.length) '0' ++ digits
  let fraction := (fraction.reverse.dropWhile (· = '0')).reverse
  Nat.toDigits 10 (n / size) ++ (if fraction = [] then [] else '.' :: fraction) ++ unit.toList

def render (d : Duration) : List Char :=
  if 1_000_000_000 ≤ d.nanos then inUnits d.nanos 9 "s"
  else if 1_000_000 ≤ d.nanos then inUnits d.nanos 6 "ms"
  else if 1_000 ≤ d.nanos then inUnits d.nanos 3 "µs"
  else inUnits d.nanos 0 "ns"

def toText (d : Duration) : String := String.ofList d.render

end Duration
end WideColumn
