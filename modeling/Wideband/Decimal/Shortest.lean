import Wideband.Decimal.Binary64

namespace Wideband

/-!
Decimal text of a double-precision number: the fewest digits that read back as the same number,
and of those the nearest, written positionally. All comparisons are made on whole numbers, so
the choice of digits is exact.
-/

namespace Decimal

structure Digits where
  digits : Nat
  exponent : Int

/-- The reals that round to one number, as whole multiples of `2 ^ exponent`: the number itself
and the midpoints to its neighbours. The midpoints belong to it when `closed`. -/
structure Interval where
  low : Nat
  value : Nat
  high : Nat
  exponent : Int
  closed : Bool

/-- The reals that round to `significand * 2 ^ exponent`. Below a power of two the numbers lie
twice as dense, so the lower midpoint of a power of two is nearer. -/
def Interval.around (significand : Nat) (exponent : Int) : Interval where
  low :=
    if significand == Nat.pow 2 Binary64.storedBits && exponent != Binary64.leastExponent then
      4 * significand - 1
    else 4 * significand - 2
  value := 4 * significand
  high := 4 * significand + 2
  exponent := exponent - 2
  closed := significand % 2 == 0

def gridFactors (exponent grid : Int) : Nat × Nat :=
  (Nat.pow 2 exponent.toNat * Nat.pow 10 (-grid).toNat,
    Nat.pow 2 (-exponent).toNat * Nat.pow 10 grid.toNat)

def Interval.contains (interval : Interval) (digits : Nat) (grid : Int) : Bool :=
  let (numerator, denominator) := gridFactors interval.exponent grid
  let point := digits * denominator
  let low := interval.low * numerator
  let high := interval.high * numerator
  if interval.closed then low ≤ point && point ≤ high else low < point && point < high

/-- The multiple of `10 ^ grid` nearest to the number, among those that round to it. Of two
equally near ones the larger is taken. -/
def Interval.nearestOn (interval : Interval) (grid : Int) : Option Digits :=
  let (numerator, denominator) := gridFactors interval.exponent grid
  let below := interval.value * numerator / denominator
  let rest := interval.value * numerator % denominator
  let hitsBelow := interval.contains below grid
  let hitsAbove := interval.contains (below + 1) grid
  if hitsBelow && (!hitsAbove || 2 * rest < denominator) then some ⟨below, grid⟩
  else if hitsAbove then some ⟨below + 1, grid⟩
  else none

def Interval.magnitude (interval : Interval) : Int :=
  let size : Int := interval.value.log2 + interval.exponent
  -- 30103 / 100000 lies just above the decimal logarithm of two
  (size + 1) * 30103 / 100000 + 1

def Interval.search (interval : Interval) (grid : Int) : Nat → Digits
  | 0 => ⟨interval.value, interval.exponent⟩
  | steps + 1 =>
      match interval.nearestOn grid with
      | some found => found
      | none => interval.search (grid - 1) steps

/-- Seventeen digits always suffice, and the first grids may still be too coarse. -/
def Interval.shortest (interval : Interval) : Digits :=
  interval.search interval.magnitude 20

def Digits.text (decimal : Digits) : String :=
  if 0 ≤ decimal.exponent then
    toString (decimal.digits * Nat.pow 10 decimal.exponent.toNat)
  else
    let places := (-decimal.exponent).toNat
    let whole := decimal.digits / Nat.pow 10 places
    let fraction := toString (decimal.digits % Nat.pow 10 places)
    toString whole ++ "." ++ String.ofList (List.replicate (places - fraction.length) '0') ++ fraction

def text (x : Float) : String :=
  match Binary64.ofFloat x with
  | .notANumber => "NaN"
  | .infinite negative => if negative then "-inf" else "inf"
  | .finite negative significand exponent =>
      let size :=
        if significand == 0 then "0"
        else (Interval.around significand exponent).shortest.text
      if negative then "-" ++ size else size

end Decimal

end Wideband
