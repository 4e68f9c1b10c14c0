import Wideband.Recording.Player
import Wideband.Recording.Wave
import Wideband.Simulation.Noise
import Wideband.Simulation.Replay
import Wideband.Simulation.Script
import Wideband.Source.Converted
import Wideband.Source.Rotated

namespace Wideband

inductive Feed where
  | replay (replay : Replay Complex32)
  | recording (player : Recording.Player Recording.WaveReader)
  | scripted (source : Scripted Complex32)
  | noisy (inner : Feed) (noise : Noise)
  | converted (inner : Feed) (staging : Option (Buffer Complex32))
  | rotated (inner : Feed) (multiplier : Complex32)

namespace Feed

instance : Inhabited Feed := ⟨.replay (.ofSignal #[] 0)⟩

def format : Feed → Format
  | .replay _ => .complex
  | .recording _ => .complex
  | .scripted source => source.script.samples.format
  | .noisy inner _ => inner.format
  | .converted _ _ => .complex
  | .rotated _ _ => .complex

def rate : Feed → Nat
  | .replay source => source.rate
  | .recording player => player.layout.rate
  | .scripted source => source.script.rate
  | .noisy inner _ => inner.rate
  | .converted inner _ => inner.rate
  | .rotated inner _ => inner.rate

def wrap {ρ : Type} (make : ρ → Feed) (reading : Reading ρ Complex32) : Reading Feed Complex32 :=
  ⟨reading.outcome, reading.view, make reading.source, reading.signals⟩

def read (feed : Feed) (view : Buffer Complex32) : Reading Feed Complex32 :=
  match feed with
  | .replay source => wrap .replay (source.read view)
  | .recording player => wrap .recording (player.read view)
  | .scripted source => wrap .scripted (source.read view)
  | .noisy inner noise =>
      let reading := inner.read view
      let (view, noise) := Noisy.respond noise reading.outcome reading.view
      ⟨reading.outcome, view, .noisy reading.source noise, reading.signals⟩
  | .converted inner staging =>
      match Converted.request staging view with
      | .error cause => ⟨.fail cause, view, .converted inner staging, .none⟩
      | .ok asked =>
          let reading := inner.read asked
          let (outcome, view, staging) :=
            Converted.respond staging view reading.outcome reading.view
          ⟨outcome, view, .converted reading.source staging, reading.signals⟩
  | .rotated inner multiplier =>
      match Rotated.request view with
      | .error cause => ⟨.fail cause, view, .rotated inner multiplier, .none⟩
      | .ok asked =>
          let reading := inner.read asked
          let (outcome, view) := Rotated.respond multiplier reading.outcome reading.view
          ⟨outcome, view, .rotated reading.source multiplier, reading.signals⟩

def close : Feed → Except Error Unit × Feed
  | .replay source => (.ok (), .replay source)
  | .recording player => (.ok (), .recording player)
  | .scripted source =>
      let (result, source) := source.close
      (result, .scripted source)
  | .noisy inner noise =>
      let (result, inner) := inner.close
      (result, .noisy inner noise)
  | .converted inner staging =>
      let (result, inner) := inner.close
      (result, .converted inner staging)
  | .rotated inner multiplier =>
      let (result, inner) := inner.close
      (result, .rotated inner multiplier)

instance : Source Feed Complex32 where
  format := format
  rate := rate
  read := read
  close := close

def convert (inner : Feed) (staging : Nat) : Feed :=
  .converted inner (Converted.stagingFor inner.format staging)

def rotate (inner : Feed) (multiplier : Complex32) : Except Error Feed :=
  match Rotated.checkFormat inner.format with
  | .error cause => .error cause
  | .ok () => .ok (.rotated inner multiplier)

/-- The feed below the outermost conversion or rotation. -/
def inner : Feed → Feed
  | .converted inner _ => inner
  | .rotated inner _ => inner
  | other => other

def closes : Feed → List Nat
  | .scripted source => [source.closes]
  | .replay _ => []
  | .recording _ => []
  | .noisy inner _ => inner.closes
  | .converted inner _ => inner.closes
  | .rotated inner _ => inner.closes

end Feed

end Wideband
