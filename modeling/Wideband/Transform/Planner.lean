import Wideband.Buffer

namespace Wideband

/-!
Transforms between time and frequency. A planner prepares transforms of a fixed length and
direction, which are then applied any number of times. Nothing else in the library knows how a
transform is computed: a planner is a record of functions, and `Planner.ofKernel` makes one from
any function that transforms a block.

Transforms are not normalised in either direction, so going there and back multiplies a block by
its length.
-/

inductive Direction where
  | forward
  | backward
deriving DecidableEq

structure Applied (π C : Type) where
  result : Except Error Unit
  plan : π
  time : Array C
  frequency : Array C

structure Planner (C π : Type) where
  /-- Prepares a transform for buffers like these. -/
  prepare : Buffer C → Array C → Direction → Except Error π
  /-- Applies a transform. Forward reads the first buffer and writes the first bins of the
  second; backward reads the first bins of the second and writes the first. -/
  apply : π → Array C → Array C → Applied π C
  close : π → Except Error Unit × π
  length : π → Nat
  direction : π → Direction

structure Plan where
  length : Nat
  direction : Direction
  closed : Bool
deriving DecidableEq

abbrev Kernel (C : Type) := Direction → Array C → Array C

namespace Plan

variable {C : Type}

/-- The length of a transform between the two buffers: the time buffer is complex and not empty,
and every point has a bin to go to. -/
def lengthFor (time : Buffer C) (frequency : Array C) : Except Error Nat :=
  match time with
  | .complex samples =>
      if samples.size = 0 then .error (.misfit .emptyTransform)
      else if frequency.size < samples.size then
        .error (.bufferTooSmall samples.size frequency.size)
      else .ok samples.size
  | other => .error (.formatUnsupported other.format)

def prepare (time : Buffer C) (frequency : Array C) (direction : Direction) :
    Except Error Plan :=
  match lengthFor time frequency with
  | .error cause => .error cause
  | .ok length => .ok ⟨length, direction, false⟩

def check (plan : Plan) (time frequency : Nat) : Except Error Unit :=
  if plan.closed then .error (.transform .closed)
  else if time ≠ plan.length then .error (.lengthMismatch [plan.length, time])
  else if frequency < plan.length then .error (.bufferTooSmall plan.length frequency)
  else .ok ()

def apply (kernel : Kernel C) (plan : Plan) (time frequency : Array C) : Applied Plan C :=
  match plan.check time.size frequency.size with
  | .error cause => ⟨.error cause, plan, time, frequency⟩
  | .ok () =>
      match plan.direction with
      | .forward =>
          let bins := kernel .forward time
          ⟨.ok (), plan, time, bins ++ frequency.extract plan.length frequency.size⟩
      | .backward =>
          ⟨.ok (), plan, kernel .backward (frequency.extract 0 plan.length), frequency⟩

def close (plan : Plan) : Except Error Unit × Plan :=
  (.ok (), { plan with closed := true })

end Plan

def Planner.ofKernel {C : Type} (kernel : Kernel C) : Planner C Plan where
  prepare := Plan.prepare
  apply := Plan.apply kernel
  close := Plan.close
  length := Plan.length
  direction := Plan.direction

structure Transformed (C : Type) where
  result : Except Error Unit
  time : Buffer C
  frequency : Array C

/-- Prepares, applies and releases a single transform. A failure to release it counts before the
transform's own. -/
def Planner.transform {C π : Type} (planner : Planner C π) (time : Buffer C)
    (frequency : Array C) (direction : Direction) : Transformed C :=
  match planner.prepare time frequency direction with
  | .error cause => ⟨.error cause, time, frequency⟩
  | .ok plan =>
      match time.samples with
      | .error cause => ⟨.error cause, time, frequency⟩
      | .ok samples =>
          let applied := planner.apply plan samples frequency
          let result := match planner.close applied.plan with
            | (.error cause, _) => .error cause
            | (.ok (), _) => applied.result
          ⟨result, .complex applied.time, applied.frequency⟩

end Wideband
