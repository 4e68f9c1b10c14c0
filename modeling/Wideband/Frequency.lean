namespace Wideband

/-- The arithmetic of frequencies. Comparisons answer a Boolean, so that a value that is not a
number compares false on every side. -/
class Frequency (F : Type) extends Add F, Sub F, Mul F, Div F, Neg F where
  ofInt : Int → F
  below : F → F → Bool
  atMost : F → F → Bool
  abs : F → F
  /-- The nearest integer; a half goes away from zero. -/
  round : F → F
  /-- The integer part, as far as a 64 bit integer can hold it. -/
  truncate : F → Int

namespace Frequency

def half {F : Type} [Frequency F] : F :=
  ofInt 1 / ofInt 2

end Frequency

instance : Frequency Float where
  ofInt := Float.ofInt
  below a b := a < b
  atMost a b := a ≤ b
  abs := Float.abs
  round := Float.round
  truncate x := x.toInt64.toInt

end Wideband
