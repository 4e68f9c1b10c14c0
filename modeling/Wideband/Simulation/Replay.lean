import Wideband.Simulation.Cyclic
import Wideband.Source.Basic

namespace Wideband

/-!
A receiver stand-in that repeats one signal. Sample `n` of the stream is the signal's sample
`n + delay`, counted around the signal, times a constant. Several replays of one signal with
different delays and constants model receivers that are skewed in time and in carrier phase.
-/

structure Replay (C : Type) where
  signal : Array C
  rate : Nat
  position : Nat
  multiplier : C
  left : Option Nat

namespace Replay

variable {C R : Type}

def ofSignal [One C] (signal : Array C) (rate : Nat) : Replay C :=
  ⟨signal, rate, 0, 1, none⟩

/-- Starts `delay` samples further on; a negative delay goes back. -/
def delayed (replay : Replay C) (delay : Int) : Replay C :=
  { replay with position := ((replay.position + delay) % (replay.signal.size : Int)).toNat }

def turned [Sample C R] (replay : Replay C) (angle : R) : Replay C :=
  { replay with multiplier := Sample.unit angle }

def limited (replay : Replay C) (count : Nat) : Replay C :=
  { replay with left := some count }

def available (replay : Replay C) (size : Nat) : Nat :=
  if replay.signal.size = 0 then 0
  else match replay.left with
    | none => size
    | some left => min size left

def advance (replay : Replay C) (count : Nat) : Replay C :=
  { replay with
    position := (replay.position + count) % replay.signal.size
    left := replay.left.map (· - count) }

def read [Sample C R] (replay : Replay C) (view : Buffer C) : Reading (Replay C) C :=
  match view with
  | .complex out =>
      let count := replay.available out.size
      let stretch := (cyclic replay.signal replay.position count).map (· * replay.multiplier)
      ⟨.ok count, .complex (stretch ++ out.extract count out.size), replay.advance count, .none⟩
  | other => ⟨.fail (.formatMismatch .complex other.format), view, replay, .none⟩

instance [Sample C R] : Source (Replay C) C where
  format _ := .complex
  rate := Replay.rate
  read := Replay.read
  close replay := (.ok (), replay)

end Replay

end Wideband
