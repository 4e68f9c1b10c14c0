import Wideband.Lock.Settings
import Wideband.Source.Together
import Wideband.Transform.Correlator

namespace Wideband.Lock

/-!
Brings streams into step, sample by sample. Stream 0 is the reference; a round measures by how
many samples every other stream leads it, in several trials on fresh samples that must all
agree. The agreed offsets are then drained by skipping samples, and a further round confirms.
The streams are locked when a round agrees that all offsets are zero.

A failure while offsets are being drained leaves the synchronizer measuring, so the next run
starts with a fresh round. `Work.step` is one step of this machine and `Synchronizer.run` drives
it to its end.
-/

inductive Phase where
  | measuring
  /-- Offsets have been agreed and wait to be drained. -/
  | draining (offsets : List Int)
  | locked
deriving DecidableEq

structure Report where
  attempts : Nat
  rejected : Nat
  drained : List Nat
deriving DecidableEq

structure Synchronizer (C π : Type) where
  settings : Settings
  correlator : Correlator C π
  buffers : List (Buffer C)
  phase : Phase
  report : Report

namespace Synchronizer

variable {C π : Type}

def prepare [Zero C] (planner : Planner C π) (streams : Nat) (settings : Settings) :
    Except Error (Synchronizer C π) := do
  settings.check
  if streams = 0 then throw (.misfit .noStreams)
  let correlator ← Correlator.prepare planner settings.length
  return {
    settings, correlator
    buffers := List.replicate streams (.silent .complex settings.length)
    phase := .measuring
    report := ⟨0, 0, List.replicate streams 0⟩ }

def close (planner : Planner C π) (synchronizer : Synchronizer C π) :
    Except Error Unit × Synchronizer C π :=
  let (result, correlator) := synchronizer.correlator.close planner
  (result, { synchronizer with correlator })

end Synchronizer

structure Lags (C π : Type) where
  result : Except Error (List Int)
  correlator : Correlator C π
  reference : Array C
  buffers : List (Buffer C)

/-- Measures every buffer against the reference; the first one has the given index. -/
def measureLags {C R π : Type} [Component R] [Sample C R] (planner : Planner C π)
    (correlator : Correlator C π) (reference : Array C) (index : Nat) :
    List (Buffer C) → Lags C π
  | [] => ⟨.ok [], correlator, reference, []⟩
  | buffer :: rest =>
      match buffer.samples with
      | .error cause => ⟨.error cause, correlator, reference, buffer :: rest⟩
      | .ok samples =>
          let lag := correlator.lag planner reference samples index
          let measured := Buffer.complex lag.stream
          match lag.result with
          | .error cause => ⟨.error cause, lag.correlator, lag.reference, measured :: rest⟩
          | .ok offset =>
              let lags := measureLags planner lag.correlator lag.reference (index + 1) rest
              { lags with
                result := lags.result.map (offset :: ·)
                buffers := measured :: lags.buffers }

structure Work (ρ C π : Type) where
  synchronizer : Synchronizer C π
  sources : List ρ
  cancelled : Bool

inductive Progress (α : Type) where
  | ongoing
  | ended (outcome : Outcome α)

namespace Work

variable {ρ C R π : Type}

def inPhase (work : Work ρ C π) (phase : Phase) : Work ρ C π :=
  { work with synchronizer := { work.synchronizer with phase } }

def reporting (work : Work ρ C π) (change : Report → Report) : Work ρ C π :=
  { work with
    synchronizer := { work.synchronizer with report := change work.synchronizer.report } }

def correlate [Component R] [Sample C R] (planner : Planner C π) (work : Work ρ C π) :
    Except Error (List Int) × Work ρ C π :=
  match work.synchronizer.buffers with
  | [] => (.ok [], work)
  | first :: rest =>
      match first.samples with
      | .error cause => (.error cause, work)
      | .ok reference =>
          let lags := measureLags planner work.synchronizer.correlator reference 1 rest
          let buffers := .complex lags.reference :: lags.buffers
          let synchronizer :=
            { work.synchronizer with correlator := lags.correlator, buffers }
          (lags.result.map (0 :: ·), { work with synchronizer })

def trial [Component R] [Sample C R] [Source ρ C] (planner : Planner C π)
    (work : Work ρ C π) : Outcome (List Int) × Work ρ C π :=
  let gathered := Source.fillAll .measuring work.sources work.synchronizer.buffers
  let work : Work ρ C π :=
    { synchronizer := { work.synchronizer with buffers := gathered.buffers }
      sources := gathered.sources
      cancelled := work.cancelled || gathered.signals.cancels }
  match gathered.outcome with
  | .error failure => (.error failure, work)
  | .ok () =>
      let (result, work) := work.correlate planner
      (Outcome.ofResult result, work)

/-- The trials left of a round, in which `agreed` has been found so far. A round without agreement
has no offsets. -/
def measure [Component R] [Sample C R] [Source ρ C] (planner : Planner C π) :
    Nat → Option (List Int) → Work ρ C π → Outcome (Option (List Int)) × Work ρ C π
  | 0, agreed, work => (.ok agreed, work)
  | trials + 1, agreed, work =>
      if work.cancelled then (.fail .cancelled, work)
      else
        match work.trial planner with
        | (.error failure, work) => (.error failure, work)
        | (.ok offsets, work) =>
            match agreed with
            | none => measure planner trials (some offsets) work
            | some first =>
                if first = offsets then measure planner trials agreed work else (.ok none, work)

/-- Skips samples of one stream and enters them into the report once they are all gone. -/
def discard [Zero C] [Source ρ C] (work : Work ρ C π) (index count : Nat) :
    Outcome Unit × Work ρ C π :=
  match work.sources[index]? with
  | none => (.error .fault, work)
  | some source =>
      let skipped := Source.skip source count work.synchronizer.settings.length
      let work :=
        { work with
          sources := work.sources.set index skipped.source
          cancelled := work.cancelled || skipped.signals.cancels }
      match skipped.outcome with
      | .error failure => (Outcome.inStream index .draining (.error failure), work)
      | .ok () =>
          (.ok (), work.reporting fun report =>
            { report with drained := report.drained.modify index (· + count) })

/-- Skips samples of every stream whose offset is negative; the first offset belongs to the stream
at `index`. -/
def drainLate [Zero C] [Source ρ C] (index : Nat) :
    List Int → Work ρ C π → Outcome Unit × Work ρ C π
  | [], work => (.ok (), work)
  | offset :: rest, work =>
      if offset < 0 then
        match work.discard index offset.natAbs with
        | (.error failure, work) => (.error failure, work)
        | (.ok (), work) => drainLate (index + 1) rest work
      else drainLate (index + 1) rest work

def largest : List Int → Int
  | [] => 0
  | first :: rest => rest.foldl max first

/-- Skips samples until all offsets are zero. If a stream leads the reference, the reference is
moved up to the one that leads most, after which no stream leads. -/
def drain [Zero C] [Source ρ C] (work : Work ρ C π) (offsets : List Int) :
    Outcome Unit × Work ρ C π :=
  let lead := largest offsets
  if 0 < lead then
    match work.discard 0 lead.toNat with
    | (.error failure, work) => (.error failure, work)
    | (.ok (), work) =>
        match offsets with
        | [] => (.ok (), work)
        | reference :: others => drainLate 0 (reference :: others.map (· - lead)) work
  else drainLate 0 offsets work

def exhausted (work : Work ρ C π) : Bool :=
  match work.synchronizer.settings.maxAttempts with
  | none => false
  | some limit => limit ≤ work.synchronizer.report.attempts

def step [Component R] [Sample C R] [Source ρ C] (planner : Planner C π)
    (work : Work ρ C π) : Progress Report × Work ρ C π :=
  match work.synchronizer.phase with
  | .measuring =>
      if work.exhausted then
        (.ended (.fail (.notConverged work.synchronizer.report.attempts)), work)
      else
        let work := work.reporting fun report => { report with attempts := report.attempts + 1 }
        match work.measure planner work.synchronizer.settings.trials none with
        | (.error failure, work) => (.ended (.error failure), work)
        | (.ok (some offsets), work) => (.ongoing, work.inPhase (.draining offsets))
        | (.ok none, work) =>
            (.ongoing, work.reporting fun report =>
              { report with rejected := report.rejected + 1 })
  | .draining offsets =>
      let work := work.inPhase .measuring
      if work.cancelled then (.ended (.fail .cancelled), work)
      else if offsets.all (· == 0) then (.ongoing, work.inPhase .locked)
      else
        match work.drain offsets with
        | (.error failure, work) => (.ended (.error failure), work)
        | (.ok (), work) => (.ongoing, work)
  | .locked => (.ended (.ok work.synchronizer.report), work)

def stepsFor [Component R] [Sample C R] [Source ρ C] (planner : Planner C π) :
    Nat → Work ρ C π → Outcome Report × Work ρ C π
  | 0, work => (.error .fault, work)
  | steps + 1, work =>
      match work.step planner with
      | (.ended outcome, work) => (outcome, work)
      | (.ongoing, work) => stepsFor planner steps work

end Work

/-- Steps that a run can take. A round takes two, and the end one or two more. Rounds are counted
in 64 bits, which bounds a run without a limit of its own. -/
def Settings.steps (settings : Settings) : Nat :=
  match settings.maxAttempts with
  | some limit => 2 * limit + 2
  | none => Nat.pow 2 65

/-- The first stream that is not complex is refused; indices start at `index`. -/
def checkFormats (index : Nat) : List Format → Except Error Unit
  | [] => .ok ()
  | .complex :: rest => checkFormats (index + 1) rest
  | other :: _ => .error (.stream index .measuring (.formatMismatch .complex other))

namespace Synchronizer

variable {ρ C R π : Type}

def checkSources [Source ρ C] (synchronizer : Synchronizer C π) (sources : List ρ) :
    Except Error Unit := do
  let streams := synchronizer.buffers.length
  if sources.length ≠ streams then throw (.lengthMismatch [streams, sources.length])
  checkFormats 0 (sources.map (Source.format (C := C)))
  let _ ← Source.sharedRate sources

/-- Locks the sources. Once locked, a synchronizer answers with its report and reads nothing. -/
def run [Component R] [Sample C R] [Source ρ C] (planner : Planner C π)
    (synchronizer : Synchronizer C π) (sources : List ρ) (cancelled : Bool) :
    Outcome Report × Work ρ C π :=
  let work : Work ρ C π := ⟨synchronizer, sources, cancelled⟩
  match synchronizer.checkSources sources with
  | .error cause => (.fail cause, work)
  | .ok () => work.stepsFor planner synchronizer.settings.steps

end Synchronizer

structure Used (ρ α : Type) where
  outcome : Outcome α
  sources : List ρ
  cancelled : Bool

/-- Locks sources with a synchronizer of their own. A failure to release its transforms counts
before the outcome of its run. -/
def synchronize {ρ C R π : Type} [Component R] [Sample C R] [Source ρ C]
    (planner : Planner C π) (settings : Settings) (sources : List ρ) (cancelled : Bool) :
    Used ρ Report :=
  match Synchronizer.prepare planner sources.length settings with
  | .error cause => ⟨.fail cause, sources, cancelled⟩
  | .ok synchronizer =>
      let (outcome, work) := synchronizer.run planner sources cancelled
      let outcome := match outcome, work.synchronizer.close planner with
        | .error .fault, _ => .error .fault
        | _, (.error cause, _) => .fail cause
        | outcome, (.ok (), _) => outcome
      ⟨outcome, work.sources, work.cancelled⟩

end Wideband.Lock
