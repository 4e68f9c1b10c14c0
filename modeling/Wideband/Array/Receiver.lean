import Wideband.Frequency
import Wideband.Source.Basic

namespace Wideband

/-- A receiver whose streams are `ρ` and whose frequencies are `F`. -/
class Receiver (τ : Type) (ρ F : outParam Type) where
  rate : τ → Except Error Nat
  setRate : τ → Nat → Except Error Unit × τ
  tune : τ → F → Except Error Unit × τ
  start : τ → Outcome ρ × τ
  /-- Switches the noise source of the receiver on or off, if it has one. -/
  switchNoise : τ → Option (Bool → Except Error Unit × τ)

namespace Receiver

variable {τ ρ F : Type}

def noRateControl : Error := .notSupported "sample rate control"

/-- Acts on the receivers in order, up to a first failure. -/
def each (act : τ → Except Error Unit × τ) : List τ → Except Error Unit × List τ
  | [] => (.ok (), [])
  | receiver :: rest =>
      match act receiver with
      | (.error cause, receiver) => (.error cause, receiver :: rest)
      | (.ok (), receiver) =>
          let (result, rest) := each act rest
          (result, receiver :: rest)

def tuneEach [Receiver τ ρ F] : List τ → List F → Except Error Unit × List τ
  | receiver :: rest, frequency :: frequencies =>
      match Receiver.tune receiver frequency with
      | (.error cause, receiver) => (.error cause, receiver :: rest)
      | (.ok (), receiver) =>
          let (result, rest) := tuneEach rest frequencies
          (result, receiver :: rest)
  | receivers, _ => (.ok (), receivers)

def switch [Receiver τ ρ F] (enabled : Bool) (receiver : τ) : Except Error Unit × τ :=
  match Receiver.switchNoise receiver with
  | none => (.ok (), receiver)
  | some act => act enabled

end Receiver

end Wideband
