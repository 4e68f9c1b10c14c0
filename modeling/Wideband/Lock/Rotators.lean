import Wideband.Lock.Synchronizer

namespace Wideband.Lock

/-!
Carrier phases of streams that are in step. The angle by which a stream lags the reference is
averaged on the unit circle: every pair of samples adds the phasor of its own angle, and the angle
of the sum is the average. Pairs without power have no angle and are left out.
-/

variable {ρ C R : Type} [Component R] [Sample C R]

def addPhasor (sum : C) (reference stream : C) : C :=
  let product := reference * Sample.conj stream
  if Component.exceeds (Sample.power product) (0 : R) then
    sum + Sample.divide product (Sample.magnitude product)
  else sum

/-- The factor of magnitude one that turns a stream to the phase of the reference; one if the
phasors cancel out. -/
def rotator (reference stream : Array C) : C :=
  let sum := (Array.zip reference stream).foldl (fun sum (r, s) => addPhasor sum r s) (0 : C)
  if Component.same (Sample.power sum) (0 : R) then 1 else Sample.unit (Sample.angle sum)

/-- The rotators of several streams; the first stream is the reference and stays as it is. -/
def rotators : List (Array C) → List C
  | [] => []
  | reference :: streams => 1 :: streams.map (rotator reference)

def allSamples {C : Type} : List (Buffer C) → Except Error (List (Array C))
  | [] => .ok []
  | buffer :: rest => do return (← buffer.samples) :: (← allSamples rest)

def readRotators [Source ρ C] (sources : List ρ) (length : Nat) (cancelled : Bool) :
    Used ρ (List C) :=
  if length = 0 then ⟨.fail (.misfit .emptyPhaseRead), sources, cancelled⟩
  else
    let buffers := sources.map fun _ => Buffer.silent .complex length
    let gathered := Source.fillAll .phasing sources buffers
    let outcome := match gathered.outcome with
      | .error failure => .error failure
      | .ok () => Outcome.ofResult ((allSamples gathered.buffers).map rotators)
    ⟨outcome, gathered.sources, cancelled || gathered.signals.cancels⟩

end Wideband.Lock
