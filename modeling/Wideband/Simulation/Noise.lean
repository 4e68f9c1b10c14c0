import Wideband.Sample.Complex32
import Wideband.Source.Basic

namespace Wideband

/-- Noise from the normal numbers of a generator, two of them for each sample. Both parts of a
sample are normal numbers times the spread. -/
structure Noise where
  spread : Float32
  normal : Nat → Float32
  drawn : Nat

namespace Noise

def ofSigma (sigma : Float32) (normal : Nat → Float32) : Noise :=
  ⟨sigma / (2 : Float32).sqrt, normal, 0⟩

def next (noise : Noise) : Complex32 × Noise :=
  (⟨noise.normal noise.drawn * noise.spread, noise.normal (noise.drawn + 1) * noise.spread⟩,
    { noise with drawn := noise.drawn + 2 })

def addTo (noise : Noise) (signal : Array Complex32) : Array Complex32 × Noise :=
  signal.foldl
    (fun (done, noise) sample =>
      let (extra, noise) := noise.next
      (done.push (sample + extra), noise))
    (#[], noise)

def samples (noise : Noise) (count : Nat) : Array Complex32 :=
  (List.range count).foldl
    (fun (done, noise) _ =>
      let (sample, noise) := noise.next
      (done.push sample, noise))
    ((#[] : Array Complex32), noise) |>.1

end Noise

structure Noisy (ρ : Type) where
  inner : ρ
  noise : Noise

namespace Noisy

/-- What becomes of the inner source's answer: noise is added to its first `count` samples. -/
def respond (noise : Noise) (outcome : Outcome Nat) (answered : Buffer Complex32) :
    Buffer Complex32 × Noise :=
  match outcome, answered with
  | .ok count, .complex out =>
      let (noisy, noise) := noise.addTo (out.extract 0 count)
      (.complex (noisy ++ out.extract count out.size), noise)
  | _, _ => (answered, noise)

def read {ρ : Type} [Source ρ Complex32] (source : Noisy ρ) (view : Buffer Complex32) :
    Reading (Noisy ρ) Complex32 :=
  let reading := Source.read source.inner view
  let (view, noise) := respond source.noise reading.outcome reading.view
  ⟨reading.outcome, view, ⟨reading.source, noise⟩, reading.signals⟩

instance {ρ : Type} [Source ρ Complex32] : Source (Noisy ρ) Complex32 where
  format source := Source.format source.inner
  rate source := Source.rate source.inner
  read := Noisy.read
  close source :=
    let (result, inner) := Source.close (C := Complex32) source.inner
    (result, { source with inner })

end Noisy

end Wideband
