namespace Wideband

/-!
The arithmetic that sample processing needs, as two classes, so that every definition of the
library can be run on single-precision pairs and reasoned about on exact complex numbers.

A sample has an in-phase and a quadrature part. `Component` is the arithmetic of one part,
`Sample` the arithmetic of the pair.
-/

/-- The arithmetic of one part of a sample. Comparisons answer a Boolean, so that an
incomparable value (one that is not a number) compares false on every side. -/
class Component (R : Type) extends Zero R, One R, Sub R, Div R where
  ofInt : Int → R
  same : R → R → Bool
  atLeast : R → R → Bool
  exceeds : R → R → Bool

class Sample (C : Type) (R : outParam Type) extends Zero C, One C, Add C, Mul C where
  ofParts : R → R → C
  re : C → R
  im : C → R
  same : C → C → Bool
  conj : C → C
  scale : C → R → C
  divide : C → R → C
  power : C → R
  magnitude : C → R
  angle : C → R
  unit : R → C

def Component.reciprocal {R : Type} [Component R] (count : Nat) : R :=
  1 / Component.ofInt count

end Wideband
