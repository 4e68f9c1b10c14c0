import Wideband.Decimal.Binary64
import Wideband.Sample.Complex32

namespace Wideband

/-- A tone of amplitude one. Its phase is reduced to one turn before it is rounded, so that long
tones stay on frequency. -/
def tone (frequency : Float) (rate count : Nat) : Array Complex32 :=
  let turn : Float := 2 * 3.141592653589793
  let step := turn * frequency / Float.ofNat rate
  (Array.range count).map fun index =>
    Sample.unit (Binary64.remainder (step * Float.ofNat index) turn).toFloat32

def rootMeanSquare (signal : Array Complex32) : Float32 :=
  if signal.isEmpty then 0
  else
    let sum := signal.foldl (fun (sum : Float32) sample => sum + Sample.power sample) 0
    (sum / Float32.ofNat signal.size).sqrt

def noiseLevel (signal : Array Complex32) (decibels : Float32) : Float32 :=
  rootMeanSquare signal / Float32.pow 10 (decibels / 20)

end Wideband
