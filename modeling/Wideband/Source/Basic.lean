import Wideband.Buffer
import Wideband.Outcome

namespace Wideband

/-!
Sources of samples. A source has a fixed rate and a fixed format; a read hands it a view, the
part of a buffer that is still free, and the source stores samples at the front of that view and
answers how many. Short reads are allowed, and a read of nothing into a free view is the end of
the stream. `Source.fill` and `Source.skip` turn short reads into exact counts.

Reads also report what they did to the session: whether it was cancelled while they ran.
-/

structure Signals where
  cancels : Bool
  /-- The read does not return before the session is cancelled, or its patience ends. -/
  lingers : Bool

namespace Signals

def none : Signals := ⟨false, false⟩

def and (a b : Signals) : Signals :=
  ⟨a.cancels || b.cancels, a.lingers || b.lingers⟩

end Signals

structure Reading (ρ C : Type) where
  outcome : Outcome Nat
  /-- The view after the read, also when the read failed. -/
  view : Buffer C
  source : ρ
  signals : Signals

class Source (ρ : Type) (C : outParam Type) where
  format : ρ → Format
  rate : ρ → Nat
  read : ρ → Buffer C → Reading ρ C
  close : ρ → Except Error Unit × ρ

structure Skip (ρ : Type) where
  outcome : Outcome Unit
  source : ρ
  signals : Signals

namespace Source

variable {ρ C : Type} [Source ρ C]

/-- Goes on filling `buffer`, whose first `stored` samples are there already, up to `size`
samples. A source that claims more than its view could hold ends the loop with a larger count. -/
def fillFrom (size : Nat) (source : ρ) (buffer : Buffer C) (stored : Nat) (signals : Signals) :
    Reading ρ C :=
  if stored < size then
    let reading := Source.read source (buffer.drop stored)
    let buffer := (buffer.take stored).append reading.view
    let signals := signals.and reading.signals
    match reading.outcome with
    | .error failure => ⟨.error failure, buffer, reading.source, signals⟩
    | .ok 0 => ⟨.fail .endOfStream, buffer, reading.source, signals⟩
    | .ok (more + 1) => fillFrom size reading.source buffer (stored + (more + 1)) signals
  else
    ⟨.ok stored, buffer, source, signals⟩
termination_by size - stored

/-- Reads until the buffer is full. A source that ends before that fails the read. -/
def fill (source : ρ) (buffer : Buffer C) : Reading ρ C :=
  fillFrom buffer.size source buffer 0 .none

def skipChunks [Zero C] (scratch : Nat) (room : 0 < scratch) (source : ρ) (count : Nat)
    (signals : Signals) : Skip ρ :=
  if count = 0 then ⟨.ok (), source, signals⟩
  else
    let chunk := min count scratch
    let reading := fill source (Buffer.silent .complex chunk)
    let signals := signals.and reading.signals
    match reading.outcome with
    | .error failure => ⟨.error failure, reading.source, signals⟩
    | .ok _ => skipChunks scratch room reading.source (count - chunk) signals
termination_by count

/-- Reads and throws away exactly `count` complex samples, landing them in a buffer of `scratch`
samples. -/
def skip [Zero C] (source : ρ) (count scratch : Nat) : Skip ρ :=
  if room : 0 < scratch then skipChunks scratch room source count .none
  else if count = 0 then ⟨.ok (), source, .none⟩
  else ⟨.fail (.bufferTooSmall 1 0), source, .none⟩

/-- Closes every source, also after one has failed to close, and reports the first failure. -/
def closeAll (sources : List ρ) : Except Error Unit × List ρ :=
  let closed := sources.map (Source.close (C := C))
  let failures := closed.filterMap fun (result, _) =>
    match result with
    | .ok _ => none
    | .error cause => some cause
  let result := match failures with
    | [] => .ok ()
    | first :: _ => .error first
  (result, closed.map Prod.snd)

end Source

def checkRates (expected index : Nat) : List (Except Error Nat) → Except Error Nat
  | [] => .ok expected
  | .error cause :: _ => .error cause
  | .ok actual :: rest =>
      if actual = expected then checkRates expected (index + 1) rest
      else .error (.rateMismatch index expected actual)

/-- The rate that all members of a set share. The first member that differs from member zero, or
can not tell its rate, is the one reported. -/
def sharedRate : List (Except Error Nat) → Except Error Nat
  | [] => .error (.misfit .noStreams)
  | .error cause :: _ => .error cause
  | .ok expected :: rest => checkRates expected 1 rest

def Source.sharedRate {ρ C : Type} [Source ρ C] (sources : List ρ) : Except Error Nat :=
  Wideband.sharedRate (sources.map fun source => .ok (Source.rate source))

end Wideband
