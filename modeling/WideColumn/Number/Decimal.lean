/-!
The fewest decimal digits that read back as a given binary number, chosen by exact arithmetic, and
the text made of them.
-/
namespace WideColumn

/-- `mantissa * 2 ^ exponent`, a positive number between two neighbours of its format. -/
structure Dyadic where
  mantissa : Nat
  exponent : Int
  /-- The neighbour below is half as far away as the one above. -/
  narrow : Bool
  deriving DecidableEq

/-- `digits * 10 ^ exponent`. -/
structure Decimal where
  digits : Nat
  exponent : Int
  deriving DecidableEq

namespace Dyadic

/-- Numerator of `mantissa * 2 ^ twos / 10 ^ tens` over `denominator twos tens`. -/
def numerator (mantissa : Nat) (twos tens : Int) : Nat :=
  (mantissa <<< twos.toNat) * Nat.pow 10 (-tens).toNat

def denominator (twos tens : Int) : Nat :=
  Nat.pow 10 tens.toNat <<< (-twos).toNat

/-- Compares `d` with `n * 2 ^ twos`. -/
def compareDecimal (d : Decimal) (n : Nat) (twos : Int) : Ordering :=
  compare (d.digits * denominator twos d.exponent) (numerator n twos d.exponent)

/-- The decimal lies among the reals that round to the number: halfway to either neighbour, the ends
included when the mantissa is even. -/
def ReadsBack (x : Dyadic) (d : Decimal) : Prop :=
  let low := compareDecimal d (4 * x.mantissa - if x.narrow then 1 else 2) (x.exponent - 2)
  let high := compareDecimal d (4 * x.mantissa + 2) (x.exponent - 2)
  (low = .gt ∨ low = .eq ∧ x.mantissa % 2 = 0) ∧ (high = .lt ∨ high = .eq ∧ x.mantissa % 2 = 0)

instance (x : Dyadic) (d : Decimal) : Decidable (x.ReadsBack d) := by
  unfold ReadsBack; infer_instance

/-- The number is below `10 ^ k`. -/
def Below (x : Dyadic) (k : Int) : Prop :=
  compareDecimal ⟨1, k⟩ x.mantissa x.exponent = .gt

instance (x : Dyadic) (k : Int) : Decidable (x.Below k) := by
  unfold Below; infer_instance

/-- Counts up from `k`, at most `steps` times, to a power of ten above the number. -/
def raise (x : Dyadic) : Nat → Int → Int
  | 0, k => k
  | steps + 1, k => if x.Below k then k else x.raise steps (k + 1)

/-- The least `k` with the number below `10 ^ k`, from an estimate by its binary length. -/
def scale (x : Dyadic) : Int :=
  x.raise 4 (((Nat.log2 x.mantissa : Int) + x.exponent) * 30103 / 100000)

/-- The best decimal on the grid of step `10 ^ e` that reads back; of two equally near the upper. -/
def onGrid (x : Dyadic) (e : Int) : Option Decimal :=
  let num := numerator x.mantissa x.exponent e
  let den := denominator x.exponent e
  let below : Decimal := ⟨num / den, e⟩
  let above : Decimal := ⟨num / den + 1, e⟩
  if x.ReadsBack below then
    if x.ReadsBack above ∧ (2 * (num / den) + 1) * den ≤ 2 * num then some above else some below
  else if x.ReadsBack above then some above
  else none

/-- The number itself. -/
def exact (x : Dyadic) : Decimal :=
  ⟨(x.mantissa <<< x.exponent.toNat) * Nat.pow 5 (-x.exponent).toNat, min x.exponent 0⟩

/-- The first grid, by growing number of digits, that holds a decimal which reads back. -/
def shortest (x : Dyadic) : Decimal :=
  ((List.range 17).findSome? fun n : Nat => x.onGrid (x.scale - (n + 1))).getD x.exact

end Dyadic

namespace Decimal

/-- Significant digits without trailing zeros, and the exponent of the first of them. -/
def scientific (d : Decimal) : List Char × Int :=
  let ds := Nat.toDigits 10 d.digits
  ((ds.reverse.dropWhile (· = '0')).reverse, d.exponent + ds.length - 1)

/-- How a decimal is laid out. -/
structure Layout where
  /-- Exponents of the first digit that are written positionally: from here … -/
  least : Int
  /-- … up to here, excluded. -/
  limit : Int

/-- Literals are positional, with at least one decimal, from a ten-thousandth up to ten thousand
million million; all others have an exponent. -/
def literalLayout : Layout := ⟨-4, 16⟩

/-- Digits with the point after the first `whole` of them, padded with zeros on either side. -/
def positional (ds : List Char) (first : Int) : List Char :=
  if first < 0 then
    ['0', '.'] ++ List.replicate (-first - 1).toNat '0' ++ ds
  else
    let whole := first.toNat + 1
    let fraction := ds.drop whole
    ds.take whole ++ List.replicate (whole - ds.length) '0' ++ ['.'] ++
      (if fraction = [] then ['0'] else fraction)

def exponential (ds : List Char) (first : Int) : List Char :=
  ds.take 1 ++ (if ds.drop 1 = [] then [] else '.' :: ds.drop 1) ++ ['e'] ++
    (if first < 0 then ['-'] else []) ++ Nat.toDigits 10 first.natAbs

def text (layout : Layout) (d : Decimal) : List Char :=
  let (ds, first) := d.scientific
  if layout.least ≤ first ∧ first < layout.limit then positional ds first
  else exponential ds first

end Decimal
end WideColumn
