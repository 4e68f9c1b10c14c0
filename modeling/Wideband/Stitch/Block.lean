import Wideband.Spectrum.Basic
import Wideband.Transform.Planner

namespace Wideband.Stitch

/-!
One block of a stitched stream. A block of each input is transformed into its own segment of a
long spectrum, every segment is put in ascending frequency order and scaled, and the whole is
transformed back at once. Input `k` of `n` thus lands in the bins of its own `n`-th of the output
band, in the order of the inputs, the lower half of the output band last.
-/

structure Bench (C π : Type) where
  length : Nat
  forward : List π
  backward : π
  /-- The segments of all inputs, one behind the other. -/
  spectrum : Array C
  output : Array C

structure Made (C π : Type) where
  result : Except Error Unit
  bench : Bench C π
  buffers : List (Buffer C)

namespace Bench

variable {C R π : Type}

def prepareForward (planner : Planner C π) (segment : Array C) :
    List (Buffer C) → Except Error (List π)
  | [] => .ok []
  | buffer :: rest => do
      let plan ← planner.prepare buffer segment .forward
      return plan :: (← prepareForward planner segment rest)

def prepare [Zero C] (planner : Planner C π) (inputs length : Nat) :
    Except Error (Bench C π) := do
  let spectrum := Array.replicate (length * inputs) (0 : C)
  let forward ← prepareForward planner (spectrum.extract 0 length)
    (List.replicate inputs (.silent .complex length))
  let backward ← planner.prepare (.complex spectrum) spectrum .backward
  return ⟨length, forward, backward, spectrum, spectrum⟩

/-- Transforms one input into its segment and puts the segment in ascending frequency order. -/
def segment [Component R] [Sample C R] (planner : Planner C π) (length : Nat) (plan : π)
    (samples bins : Array C) : Applied π C :=
  let applied := planner.apply plan samples bins
  match applied.result with
  | .error _ => applied
  | .ok () =>
      let spectrum : Spectrum C := ⟨applied.frequency, 0, .zeroFirst⟩
      let shifted := spectrum.shiftScaled (Component.reciprocal length)
      { applied with frequency := shifted.bins }

structure Segments (C π : Type) where
  result : Except Error Unit
  plans : List π
  buffers : List (Buffer C)
  spectrum : Array C

def segments [Component R] [Sample C R] (planner : Planner C π) (length : Nat) :
    List π → List (Buffer C) → Array C → Segments C π
  | plan :: plans, buffer :: buffers, spectrum =>
      match buffer.samples with
      | .error cause => ⟨.error cause, plan :: plans, buffer :: buffers, spectrum⟩
      | .ok samples =>
          let applied := segment planner length plan samples (spectrum.extract 0 length)
          let later := spectrum.extract length spectrum.size
          match applied.result with
          | .error cause =>
              ⟨.error cause, applied.plan :: plans, .complex applied.time :: buffers,
                applied.frequency ++ later⟩
          | .ok () =>
              let rest := segments planner length plans buffers later
              ⟨rest.result, applied.plan :: rest.plans, .complex applied.time :: rest.buffers,
                applied.frequency ++ rest.spectrum⟩
  | plans, buffers, spectrum => ⟨.ok (), plans, buffers, spectrum⟩

def make [Component R] [Sample C R] (planner : Planner C π) (bench : Bench C π)
    (buffers : List (Buffer C)) : Made C π :=
  let filled := segments planner bench.length bench.forward buffers bench.spectrum
  let bench := { bench with forward := filled.plans, spectrum := filled.spectrum }
  match filled.result with
  | .error cause => ⟨.error cause, bench, filled.buffers⟩
  | .ok () =>
      let applied := planner.apply bench.backward bench.output bench.spectrum
      let bench :=
        { bench with
          backward := applied.plan
          spectrum := applied.frequency
          output := applied.time }
      ⟨applied.result, bench, filled.buffers⟩

/-- Releases all transforms, also after one has failed. -/
def close (planner : Planner C π) (bench : Bench C π) : Bench C π :=
  { bench with
    forward := bench.forward.map fun plan => (planner.close plan).2
    backward := (planner.close bench.backward).2 }

end Bench

end Wideband.Stitch
