import Wideband.Pipe.Basic
import Wideband.Source.Together
import Wideband.Stitch.Block
import Wideband.Stitch.Settings

namespace Wideband.Stitch

/-!
Stitches streams on adjacent bands into one stream at the sum of their rates. A worker makes block
after block and hands them over in a pipe; what stops it is handed over behind the last block.
When it stops it releases its transforms and closes its inputs. The pipe never makes the worker
wait, so a consumer that falls behind gets an overrun.

The worker and the consumer are one state here, and `Stitcher.work`, `Stitcher.draw`,
`Stitcher.close`, `Stitcher.drop` and `Stitcher.cancel` are their actions, which may follow each
other in any order. `Stitcher.settle` lets the worker run as far as it can, and `Stitcher.read` is a
read of a consumer that waits for it, so that a stitched stream is itself a source.
-/

inductive Stage where
  | running
  /-- Its inputs have been asked for a block, and answer when the session is cancelled. -/
  | lingering (outcome : Outcome Unit)
  | stopped

structure Stitcher (ρ C π : Type) where
  planner : Planner C π
  inputs : List ρ
  buffers : List (Buffer C)
  bench : Bench C π
  pipe : Pipe C
  stage : Stage
  cancelled : Bool

def highestRate : Nat := 0xffffffff

def checkFormats : List Format → Except Error Unit
  | [] => .ok ()
  | .complex :: rest => checkFormats rest
  | other :: _ => .error (.formatUnsupported other)

namespace Stitcher

variable {ρ C R π : Type}

def start [Zero C] [Source ρ C] (planner : Planner C π) (settings : Settings)
    (inputs : List ρ) (cancelled : Bool) : Except Error (Stitcher ρ C π) := do
  settings.check
  let rate ← Source.sharedRate inputs
  checkFormats (inputs.map (Source.format (C := C)))
  let streams := inputs.length
  if highestRate < rate * streams then throw (.misfit (.stitchedRateOverflow streams rate))
  let bench ← Bench.prepare planner streams settings.length
  let pipe ← Pipe.ofCapacity settings.queue (rate * streams)
  return {
    planner, inputs, bench, pipe, cancelled
    buffers := List.replicate streams (.silent .complex settings.length)
    stage := .running }

section Worker

variable [Source ρ C]

/-- The worker ends with an error: it hands the error over, releases its transforms and closes
its inputs. -/
def stop (stitcher : Stitcher ρ C π) (cause : Error) : Stitcher ρ C π :=
  { stitcher with
    pipe := (stitcher.pipe.closeWith cause).dropWriter
    bench := stitcher.bench.close stitcher.planner
    inputs := (Source.closeAll (C := C) stitcher.inputs).2
    stage := .stopped }

/-- The worker breaks down: its end of the pipe is gone, and nothing is put in order. -/
def abandon (stitcher : Stitcher ρ C π) : Stitcher ρ C π :=
  { stitcher with pipe := stitcher.pipe.dropWriter, stage := .stopped }

variable [Component R] [Sample C R]

/-- The worker goes on after its inputs have answered: it makes the block and queues it. -/
def finish (stitcher : Stitcher ρ C π) (outcome : Outcome Unit) : Stitcher ρ C π :=
  match outcome with
  | .error .fault => stitcher.abandon
  | .error (.error cause) => stitcher.stop cause
  | .ok () =>
      let made := stitcher.bench.make stitcher.planner stitcher.buffers
      let stitcher := { stitcher with bench := made.bench, buffers := made.buffers }
      match made.result with
      | .error cause => stitcher.stop cause
      | .ok () =>
          let (result, pipe) := stitcher.pipe.write stitcher.bench.output
          let stitcher := { stitcher with pipe }
          match result with
          | .error cause => stitcher.stop cause
          | .ok _ => { stitcher with stage := .running }

/-- One block of the worker. A worker whose inputs linger gets no further than its reads. -/
def work (stitcher : Stitcher ρ C π) : Stitcher ρ C π :=
  match stitcher.stage with
  | .stopped => stitcher
  | .lingering _ => stitcher
  | .running =>
      if stitcher.cancelled then stitcher.stop .cancelled
      else
        let gathered := Source.fillAll .stitching stitcher.inputs stitcher.buffers
        let stitcher :=
          { stitcher with
            inputs := gathered.sources
            buffers := gathered.buffers
            cancelled := gathered.signals.cancels }
        if gathered.signals.lingers && !stitcher.cancelled then
          { stitcher with stage := .lingering gathered.outcome }
        else stitcher.finish gathered.outcome

/-- The inputs of a lingering worker answer: the session was cancelled, or their patience ended. -/
def resume (stitcher : Stitcher ρ C π) : Stitcher ρ C π :=
  match stitcher.stage with
  | .lingering outcome => stitcher.finish outcome
  | _ => stitcher

def workFor : Nat → Stitcher ρ C π → Stitcher ρ C π
  | 0, stitcher => stitcher
  | blocks + 1, stitcher => workFor blocks stitcher.work

/-- Lets the worker run until it stops or lingers. Each of its blocks takes a place in the queue,
so it makes at most one more than the queue holds. -/
def settle (stitcher : Stitcher ρ C π) : Stitcher ρ C π :=
  stitcher.workFor (stitcher.pipe.channel.capacity + 1)

def joinFor : Nat → Stitcher ρ C π → Stitcher ρ C π
  | 0, stitcher => stitcher
  | reads + 1, stitcher => joinFor reads stitcher.resume.settle

/-- Waits for the worker to stop. A read that lingers is followed by a block or by the end, so
there are no more of them than the queue has places. -/
def join (stitcher : Stitcher ρ C π) : Stitcher ρ C π :=
  stitcher.settle.joinFor (stitcher.pipe.channel.capacity + 1)

end Worker

def cancel (stitcher : Stitcher ρ C π) : Stitcher ρ C π :=
  { stitcher with cancelled := true }

def close (stitcher : Stitcher ρ C π) : Stitcher ρ C π :=
  { stitcher with cancelled := true, pipe := stitcher.pipe.close }

def drop (stitcher : Stitcher ρ C π) : Stitcher ρ C π :=
  { stitcher with cancelled := true, pipe := stitcher.pipe.close.dropReader }

/-- A read of the consumer that does not wait. -/
def draw (stitcher : Stitcher ρ C π) (view : Buffer C) : Drawn (Stitcher ρ C π) C :=
  let drawn := stitcher.pipe.read view
  ⟨drawn.poll, drawn.view, { stitcher with pipe := drawn.reader }⟩

/-- A read of the consumer that waits for the worker. Once the worker has run as far as it can,
it has queued a block or stopped, unless its inputs linger. -/
def read [Component R] [Sample C R] [Source ρ C] (stitcher : Stitcher ρ C π) (view : Buffer C) :
    Reading (Stitcher ρ C π) C :=
  match stitcher.settle.draw view with
  | ⟨.ready result, view, stitcher⟩ => ⟨.ofResult result, view, stitcher, .none⟩
  | ⟨.waiting, view, stitcher⟩ =>
      match stitcher.resume.settle.draw view with
      | ⟨.ready result, view, stitcher⟩ => ⟨.ofResult result, view, stitcher, .none⟩
      | ⟨.waiting, view, stitcher⟩ => ⟨.error .fault, view, stitcher, .none⟩

instance [Component R] [Sample C R] [Source ρ C] : Source (Stitcher ρ C π) C where
  format _ := .complex
  rate stitcher := stitcher.pipe.rate
  read := Stitcher.read
  close stitcher := (.ok (), stitcher.close)

end Stitcher

end Wideband.Stitch
