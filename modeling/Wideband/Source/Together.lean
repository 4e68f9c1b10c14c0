import Wideband.Source.Basic

namespace Wideband

/-!
Reading several sources at once. Every source is driven until its own buffer is full or its own
read fails, whatever becomes of the others, so the result does not depend on how the reads
interleave.
-/

structure Gathering (ρ C : Type) where
  outcome : Outcome Unit
  sources : List ρ
  buffers : List (Buffer C)
  signals : Signals

namespace Source

variable {ρ C : Type}

/-- The first error, labelled with its index; indices start at `index`. -/
def firstError (stage : Stage) (index : Nat) : List (Outcome Nat) → Outcome Unit
  | [] => .ok ()
  | .ok _ :: rest => firstError stage (index + 1) rest
  | .error failure :: _ => Outcome.inStream index stage (.error failure)

def faulted : Outcome Nat → Bool
  | .error .fault => true
  | _ => false

/-- The outcome of several reads. One that broke down breaks the whole; of the errors the one
with the lowest index is reported. -/
def jointOutcome (stage : Stage) (outcomes : List (Outcome Nat)) : Outcome Unit :=
  if outcomes.any faulted then .error .fault else firstError stage 0 outcomes

def fillAll [Source ρ C] (stage : Stage) (sources : List ρ) (buffers : List (Buffer C)) :
    Gathering ρ C :=
  if sources.length = buffers.length then
    let readings := List.zipWith fill sources buffers
    { outcome := jointOutcome stage (readings.map Reading.outcome)
      sources := readings.map Reading.source
      buffers := readings.map Reading.view
      signals := readings.foldl (fun signals reading => signals.and reading.signals) .none }
  else
    ⟨.fail (.lengthMismatch [sources.length, buffers.length]), sources, buffers, .none⟩

/-- Reads the next `count` samples of one source after the other, up to a read that breaks down;
the sources behind it are not read. -/
def next [Zero C] [Source ρ C] (count : Nat) : List ρ → List (Reading ρ C)
  | [] => []
  | source :: rest =>
      let reading := fill source (.silent .complex count)
      if faulted reading.outcome then [reading] else reading :: next count rest

end Source

end Wideband
