import Wideband.Array.Receiver
import Wideband.Lock.Rotators
import Wideband.Source.Converted
import Wideband.Source.Rotated

namespace Wideband

/-!
Receivers on one frequency, brought into sample and phase lock. A start checks the rates, switches
the noise sources on, starts every receiver, locks the streams, finds their rotators, and switches
the noise sources off again. When it fails, the streams that were started are closed and the noise
sources switched off; the failure that counts is the earliest one.
-/

structure Session (ρ C : Type) where
  readers : List (Rotated (Converted ρ C) C)
  rotators : List C
  report : Lock.Report

structure LockedArray (τ C π : Type) where
  receivers : List τ
  planner : Planner C π
  settings : Lock.Settings
  /-- Whoever holds the token of the array has cancelled it. -/
  cancelled : Bool

structure Start (τ ρ C π : Type) where
  outcome : Outcome (Session ρ C)
  /-- The streams that were begun and are not part of a session, in the order of the receivers. -/
  retired : List (Converted ρ C)
  array : LockedArray τ C π

namespace Session

variable {ρ C R : Type} [Component R] [Sample C R] [Source ρ C]

def close (session : Session ρ C) : Except Error Unit × Session ρ C :=
  let (result, readers) := Source.closeAll (C := C) session.readers
  (result, { session with readers })

def unrotated (session : Session ρ C) : List (Converted ρ C) :=
  session.readers.map Rotated.inner

end Session

namespace LockedArray

variable {τ ρ C R π F : Type}

def ofReceivers (planner : Planner C π) (receivers : List τ) :
    Except Error (LockedArray τ C π) :=
  if receivers.isEmpty then .error (.misfit .noReceivers)
  else .ok ⟨receivers, planner, .standard, false⟩

def withSettings (array : LockedArray τ C π) (settings : Lock.Settings) : LockedArray τ C π :=
  { array with settings }

def cancel (array : LockedArray τ C π) : LockedArray τ C π :=
  { array with cancelled := true }

section

variable [Receiver τ ρ F]

def rate (array : LockedArray τ C π) : Except Error Nat :=
  sharedRate (array.receivers.map Receiver.rate)

def tune (array : LockedArray τ C π) (frequency : F) : Except Error Unit × LockedArray τ C π :=
  let (result, receivers) :=
    Receiver.each (fun receiver => Receiver.tune receiver frequency) array.receivers
  (result, { array with receivers })

def switchNoise (array : LockedArray τ C π) (enabled : Bool) :
    Except Error Unit × LockedArray τ C π :=
  let (result, receivers) := Receiver.each (Receiver.switch enabled) array.receivers
  (result, { array with receivers })

variable [Component R] [Sample C R] [Source ρ C]

/-- Starts receivers in order, up to a first failure, and answers the streams begun until then. -/
def startEach : List τ → Outcome Unit × List (Converted ρ C) × List τ
  | [] => (.ok (), [], [])
  | receiver :: rest =>
      match Receiver.start receiver with
      | (.error failure, receiver) => (.error failure, [], receiver :: rest)
      | (.ok stream, receiver) =>
          let (outcome, streams, rest) := startEach rest
          (outcome, .ofSource stream :: streams, receiver :: rest)

/-- Gives up streams after a failure: they are closed, unless the failure was a breakdown. -/
def giveUp (failure : Failure) (streams : List (Converted ρ C)) : List (Converted ρ C) :=
  match failure with
  | .fault => streams
  | .error _ => (Source.closeAll (C := C) streams).2

def lockStreams (planner : Planner C π) (settings : Lock.Settings)
    (streams : List (Converted ρ C)) (cancelled : Bool) :
    Lock.Used (Converted ρ C) (Lock.Report × List C) :=
  let locked := Lock.synchronize planner settings streams cancelled
  match locked.outcome with
  | .error failure => ⟨.error failure, locked.sources, locked.cancelled⟩
  | .ok report =>
      let phased := Lock.readRotators locked.sources settings.length locked.cancelled
      ⟨phased.outcome.map (report, ·), phased.sources, phased.cancelled⟩

def lock (array : LockedArray τ C π) : Start τ ρ C π :=
  match startEach (C := C) array.receivers with
  | (.error failure, streams, receivers) =>
      ⟨.error failure, giveUp failure streams, { array with receivers }⟩
  | (.ok (), streams, receivers) =>
      let used := lockStreams array.planner array.settings streams array.cancelled
      let array := { array with receivers, cancelled := used.cancelled }
      match used.outcome with
      | .error failure => ⟨.error failure, giveUp failure used.sources, array⟩
      | .ok (report, rotators) =>
          ⟨.ok ⟨List.zipWith Rotated.mk used.sources rotators, rotators, report⟩, [], array⟩

/-- Ends a start whose noise sources have been switched on: they are switched off, and a failure
to do so gives up the session. After a breakdown nothing is switched. -/
def quiet (start : Start τ ρ C π) : Start τ ρ C π :=
  match start.outcome with
  | .error .fault => start
  | .error (.error _) => { start with array := (start.array.switchNoise false).2 }
  | .ok session =>
      let (result, array) := start.array.switchNoise false
      match result with
      | .ok () => { start with array }
      | .error cause => ⟨.fail cause, session.close.2.unrotated, array⟩

def start (array : LockedArray τ C π) : Start τ ρ C π :=
  match (do array.settings.check; array.rate) with
  | .error cause => ⟨.fail cause, [], array⟩
  | .ok _ =>
      match array.switchNoise true with
      | (.error cause, array) => ⟨.fail cause, [], (array.switchNoise false).2⟩
      | (.ok (), array) => quiet array.lock

end

end LockedArray

end Wideband
