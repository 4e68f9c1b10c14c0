import Wideband.Array.Receiver
import Wideband.Simulation.Feed

namespace Wideband

structure ScriptedNoise where
  failOn : Option Error
  failOff : Option Error
  toggles : List Bool

structure ScriptedReceiver where
  /-- The stream of every start, or why it can not be put together. -/
  stream : Except Error Feed
  scripts : Nat
  rate : Nat
  noise : Option ScriptedNoise
  rateFailure : Option Error
  tuneFailure : Option Error
  startFailure : Option Error
  setRateFailure : Option Error
  /-- Offers neither a rate control nor its noise source. -/
  plain : Bool
  tuned : List Float
  starts : Nat

def ScriptedReceiver.abandoned (receiver : ScriptedReceiver) : Nat :=
  match receiver.stream with
  | .ok _ => 0
  | .error _ => receiver.starts * receiver.scripts

def failing (failure : Option Error) : Except Error Unit :=
  match failure with
  | none => .ok ()
  | some cause => .error cause

namespace ScriptedNoise

def switch (noise : ScriptedNoise) (enabled : Bool) : Except Error Unit × ScriptedNoise :=
  match failing (if enabled then noise.failOn else noise.failOff) with
  | .error cause => (.error cause, noise)
  | .ok () => (.ok (), { noise with toggles := noise.toggles ++ [enabled] })

end ScriptedNoise

namespace ScriptedReceiver

def currentRate (receiver : ScriptedReceiver) : Except Error Nat :=
  match failing receiver.rateFailure with
  | .error cause => .error cause
  | .ok () => .ok receiver.rate

def setRate (receiver : ScriptedReceiver) (rate : Nat) : Except Error Unit × ScriptedReceiver :=
  if receiver.plain then (.error Receiver.noRateControl, receiver)
  else
    match failing receiver.setRateFailure with
    | .error cause => (.error cause, receiver)
    | .ok () => (.ok (), { receiver with rate })

def tune (receiver : ScriptedReceiver) (frequency : Float) :
    Except Error Unit × ScriptedReceiver :=
  match failing receiver.tuneFailure with
  | .error cause => (.error cause, receiver)
  | .ok () => (.ok (), { receiver with tuned := receiver.tuned ++ [frequency] })

def start (receiver : ScriptedReceiver) : Outcome Feed × ScriptedReceiver :=
  match failing receiver.startFailure with
  | .error cause => (.fail cause, receiver)
  | .ok () => (.ofResult receiver.stream, { receiver with starts := receiver.starts + 1 })

def switchNoise (receiver : ScriptedReceiver) :
    Option (Bool → Except Error Unit × ScriptedReceiver) :=
  match receiver.plain, receiver.noise with
  | false, some noise => some fun enabled =>
      let (result, noise) := noise.switch enabled
      (result, { receiver with noise := some noise })
  | _, _ => none

instance : Receiver ScriptedReceiver Feed Float where
  rate := currentRate
  setRate := setRate
  tune := tune
  start := start
  switchNoise := switchNoise

end ScriptedReceiver

end Wideband
