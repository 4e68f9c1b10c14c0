import Wideband.Lock.Rotators
import Wideband.Source.Rotated
import Wideband.Stitch.Stitcher

namespace Wideband.Stitch

structure Chain (ρ C π : Type) where
  report : Lock.Report
  rotators : List C
  stitcher : Stitcher (Rotated ρ C) C π

variable {ρ C R π : Type}

def rotateEach [Source ρ C] : List ρ → List C → Except Error (List (Rotated ρ C))
  | source :: sources, rotator :: rotators => do
      let rotated ← Rotated.ofSource source rotator
      return rotated :: (← rotateEach sources rotators)
  | _, _ => .ok []

/-- Locks, rotates and stitches sources. The sources of a failure are let go of as they are. -/
def Chain.start [Component R] [Sample C R] [Source ρ C] (planner : Planner C π)
    (lock : Lock.Settings) (stitch : Settings) (sources : List ρ) (cancelled : Bool) :
    Outcome (Chain ρ C π) := do
  let locked := Lock.synchronize planner lock sources cancelled
  let report ← locked.outcome
  let phased := Lock.readRotators locked.sources lock.length locked.cancelled
  let rotators ← phased.outcome
  let rotated ← Outcome.ofResult (rotateEach phased.sources rotators)
  let stitcher ← Outcome.ofResult (Stitcher.start planner stitch rotated phased.cancelled)
  return ⟨report, rotators, stitcher⟩

end Wideband.Stitch
