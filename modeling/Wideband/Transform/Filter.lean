import Wideband.Transform.Convolver

namespace Wideband

/-- A filter prepared for one length; `kernel` is the unnormalised forward transform of its
impulse response. -/
structure Filter (C π : Type) where
  forward : π
  backward : π
  kernel : Array C
  spectrum : Array C

structure Filtered (C π : Type) where
  result : Except Error Unit
  filter : Filter C π
  destination : Array C
  source : Array C

namespace Filter

variable {C R π : Type}

def prepare [Zero C] (planner : Planner C π) (destination source : Buffer C)
    (kernel : Array C) : Except Error (Filter C π) := do
  let length ← destination.sharedLength [source]
  if kernel.size = length then
    let spectrum := Array.replicate length (0 : C)
    let forward ← planner.prepare source spectrum .forward
    let backward ← planner.prepare destination spectrum .backward
    return ⟨forward, backward, kernel, spectrum⟩
  else throw (.lengthMismatch [length, kernel.size])

def run [Component R] [Sample C R] (planner : Planner C π) (filter : Filter C π)
    (destination source : Array C) : Filtered C π :=
  match checkLengths filter.kernel.size [destination.size, source.size] with
  | .error cause => ⟨.error cause, filter, destination, source⟩
  | .ok () =>
      let first := planner.apply filter.forward source filter.spectrum
      let filter := { filter with forward := first.plan, spectrum := first.frequency }
      match first.result with
      | .error cause => ⟨.error cause, filter, destination, first.time⟩
      | .ok () =>
          let factor := Component.reciprocal filter.kernel.size
          let product := Array.zipWith (Combination.convolution.bin factor)
            filter.spectrum filter.kernel
          let last := planner.apply filter.backward destination product
          let filter := { filter with backward := last.plan, spectrum := last.frequency }
          ⟨last.result, filter, last.time, first.time⟩

def runBuffers [Component R] [Sample C R] (planner : Planner C π) (filter : Filter C π)
    (destination source : Buffer C) : Except Error (Filtered C π) := do
  return filter.run planner (← destination.samples) (← source.samples)

def close (planner : Planner C π) (filter : Filter C π) : Except Error Unit × Filter C π :=
  let (first, forward) := planner.close filter.forward
  let (second, backward) := planner.close filter.backward
  (do first; second, { filter with forward, backward })

end Filter

end Wideband
