import Wideband.Transform.Planner

namespace Wideband

/-!
Circular convolution and correlation through the frequency domain: both operands are transformed,
their spectra are combined bin by bin, and the product is transformed back. Combining also undoes
the gain of the two transforms, so a convolution with a unit impulse at index 0 gives back the
other operand.

The correlation of `a` and `b` peaks at index `d` when `b` at `n` is `a` at `n + d`, that is when
`b` leads `a` by `d` samples.
-/

inductive Combination where
  | convolution
  | correlation
deriving DecidableEq

namespace Combination

variable {C R : Type}

def bin [Sample C R] (combination : Combination) (factor : R) (x y : C) : C :=
  match combination with
  | .convolution => Sample.scale (x * y) factor
  | .correlation => Sample.scale (x * Sample.conj y) factor

end Combination

namespace Buffer

variable {C : Type}

/-- The length that a set of operands shares. They must also share the complex format. A
difference in length is reported before one in format. -/
def sharedLength (first : Buffer C) (others : List (Buffer C)) : Except Error Nat :=
  if others.all fun other => other.size == first.size then
    match others.find? fun other => other.format != first.format with
    | some other => .error (.formatMismatch first.format other.format)
    | none =>
        match first.format with
        | .complex => .ok first.size
        | native => .error (.formatUnsupported native)
  else .error (.lengthMismatch (first.size :: others.map size))

end Buffer

def checkLengths (length : Nat) (sizes : List Nat) : Except Error Unit :=
  if sizes.all (· == length) then .ok () else .error (.lengthMismatch (length :: sizes))

structure Convolver (C π : Type) where
  combination : Combination
  length : Nat
  forwardA : π
  forwardB : π
  backward : π
  spectrumA : Array C
  spectrumB : Array C

structure Convolved (C π : Type) where
  result : Except Error Unit
  convolver : Convolver C π
  destination : Array C
  a : Array C
  b : Array C

namespace Convolver

variable {C R π : Type}

def prepare [Zero C] (planner : Planner C π) (combination : Combination)
    (destination a b : Buffer C) : Except Error (Convolver C π) := do
  let length ← destination.sharedLength [a, b]
  let spectrum := Array.replicate length (0 : C)
  let forwardA ← planner.prepare a spectrum .forward
  let forwardB ← planner.prepare b spectrum .forward
  let backward ← planner.prepare destination spectrum .backward
  return ⟨combination, length, forwardA, forwardB, backward, spectrum, spectrum⟩

/-- Combines `a` and `b` into the destination. A run that fails before its last transform leaves
the destination alone. -/
def run [Component R] [Sample C R] (planner : Planner C π) (convolver : Convolver C π)
    (destination a b : Array C) : Convolved C π :=
  match checkLengths convolver.length [destination.size, a.size, b.size] with
  | .error cause => ⟨.error cause, convolver, destination, a, b⟩
  | .ok () =>
      let first := planner.apply convolver.forwardA a convolver.spectrumA
      let convolver :=
        { convolver with forwardA := first.plan, spectrumA := first.frequency }
      match first.result with
      | .error cause => ⟨.error cause, convolver, destination, first.time, b⟩
      | .ok () =>
          let second := planner.apply convolver.forwardB b convolver.spectrumB
          let convolver :=
            { convolver with forwardB := second.plan, spectrumB := second.frequency }
          match second.result with
          | .error cause => ⟨.error cause, convolver, destination, first.time, second.time⟩
          | .ok () =>
              let factor := Component.reciprocal convolver.length
              let product := Array.zipWith (convolver.combination.bin factor)
                convolver.spectrumA convolver.spectrumB
              let last := planner.apply convolver.backward destination product
              let convolver :=
                { convolver with backward := last.plan, spectrumA := last.frequency }
              ⟨last.result, convolver, last.time, first.time, second.time⟩

def runBuffers [Component R] [Sample C R] (planner : Planner C π) (convolver : Convolver C π)
    (destination a b : Buffer C) : Except Error (Convolved C π) := do
  return convolver.run planner (← destination.samples) (← a.samples) (← b.samples)

/-- Releases all three transforms, also after one has failed, and reports the first failure. -/
def close (planner : Planner C π) (convolver : Convolver C π) :
    Except Error Unit × Convolver C π :=
  let (resultA, forwardA) := planner.close convolver.forwardA
  let (resultB, forwardB) := planner.close convolver.forwardB
  let (result, backward) := planner.close convolver.backward
  (do resultA; resultB; result, { convolver with forwardA, forwardB, backward })

end Convolver

structure ConvolvedOnce (C : Type) where
  result : Except Error Unit
  destination : Buffer C
  a : Buffer C
  b : Buffer C

/-- Prepares, runs and releases a single convolution. A failure to release it counts before the
run's own. -/
def Buffer.convolve {C R π : Type} [Component R] [Sample C R] (planner : Planner C π)
    (destination a b : Buffer C) : ConvolvedOnce C :=
  match Convolver.prepare planner .convolution destination a b with
  | .error cause => ⟨.error cause, destination, a, b⟩
  | .ok convolver =>
      match convolver.runBuffers planner destination a b with
      | .error cause =>
          let result := match (convolver.close planner).1 with
            | .error earlier => .error earlier
            | .ok () => .error cause
          ⟨result, destination, a, b⟩
      | .ok ran =>
          let result := match (ran.convolver.close planner).1 with
            | .error earlier => .error earlier
            | .ok () => ran.result
          ⟨result, .complex ran.destination, .complex ran.a, .complex ran.b⟩

end Wideband
