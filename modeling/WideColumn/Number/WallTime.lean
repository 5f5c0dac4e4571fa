/-!
Points in time as nanoseconds from the epoch, and their milliseconds.
-/
namespace WideColumn

structure WallTime where
  nanos : Int
  deriving DecidableEq, Inhabited

namespace WallTime

/-- Milliseconds from the epoch without the fraction, held within plus or minus the greatest 64-bit number. -/
def millis (t : WallTime) : Int64 :=
  let ms := t.nanos.tdiv 1_000_000
  .ofInt (max (-Int64.maxValue.toInt) (min Int64.maxValue.toInt ms))

def ofMillis (ms : Int64) : WallTime := ⟨ms.toInt * 1_000_000⟩

/-- The full second that a time is in; the clock of the host counts these with 64 bits. -/
def second (t : WallTime) : Int := t.nanos / 1_000_000_000

/-- The time that many milliseconds from the epoch, if the clock of the host gets there. -/
def ofMillis? (ms : Int64) : Option WallTime :=
  let t := ofMillis ms
  if Int64.minValue.toInt ≤ t.second ∧ t.second ≤ Int64.maxValue.toInt then some t else none

end WallTime
end WideColumn
