import Wideband.Array.Locked
import Wideband.Array.Tiling
import Wideband.Stitch.Stitcher

namespace Wideband

/-!
Receivers on adjacent bands, combined into one receiver of their joint bandwidth. Its sessions are
stitched streams; all of them watch the token of the array, so cancelling or closing one of them
cancels the array.
-/

abbrev TiledSession (ρ C π : Type) :=
  Stitch.Stitcher (Rotated (Converted ρ C) C) C π

structure TiledArray (τ ρ C π F : Type) where
  locked : LockedArray τ C π
  /-- The centre of the last tuning that succeeded. -/
  center : Option F
  settings : Stitch.Settings
  sessions : List (TiledSession ρ C π)

structure TiledStart (τ ρ C π F : Type) where
  outcome : Outcome Nat
  /-- The streams that were begun and are not part of a session, in the order of the receivers. -/
  retired : List (Converted ρ C)
  array : TiledArray τ ρ C π F

namespace TiledArray

variable {τ ρ C R π F : Type}

def ofReceivers (planner : Planner C π) (receivers : List τ) :
    Except Error (TiledArray τ ρ C π F) :=
  if 1 < receivers.length ∧ receivers.length % 2 = 1 then
    .error (.misfit (.unevenTiling receivers.length))
  else
    match LockedArray.ofReceivers planner receivers with
    | .error cause => .error cause
    | .ok locked => .ok ⟨locked, none, .standard, []⟩

def withSettings (array : TiledArray τ ρ C π F) (lock : Lock.Settings)
    (stitch : Stitch.Settings) : TiledArray τ ρ C π F :=
  { array with locked := array.locked.withSettings lock, settings := stitch }

def size (array : TiledArray τ ρ C π F) : Nat :=
  array.locked.receivers.length

section

variable [Receiver τ ρ F]

def rate (array : TiledArray τ ρ C π F) : Except Error Nat :=
  match array.locked.rate with
  | .error cause => .error cause
  | .ok rate =>
      if Stitch.highestRate < rate * array.size then
        .error (.misfit (.combinedRateOverflow array.size rate))
      else .ok (rate * array.size)

variable [Frequency F]

/-- Tunes the receivers so that their bands lie side by side around a centre, which is remembered
if all of them could be tuned. -/
def tune (array : TiledArray τ ρ C π F) (center : F) :
    Except Error Unit × TiledArray τ ρ C π F :=
  match array.locked.rate with
  | .error cause => (.error cause, array)
  | .ok rate =>
      let (result, receivers) :=
        Receiver.tuneEach array.locked.receivers (tiling center rate array.size)
      let array := { array with locked := { array.locked with receivers } }
      match result with
      | .error cause => (.error cause, array)
      | .ok () => (.ok (), { array with center := some center })

/-- Sets the joint rate, which has to divide evenly. The bands depend on the rate, so the
receivers are tuned again to a centre that is remembered. -/
def setRate (array : TiledArray τ ρ C π F) (rate : Nat) :
    Except Error Unit × TiledArray τ ρ C π F :=
  if rate % array.size ≠ 0 then
    (.error (.misfit (.indivisibleRate rate array.size)), array)
  else
    let share := rate / array.size
    let (result, receivers) :=
      Receiver.each (fun receiver => Receiver.setRate receiver share) array.locked.receivers
    let array := { array with locked := { array.locked with receivers } }
    match result with
    | .error cause => (.error cause, array)
    | .ok () =>
        match array.center with
        | none => (.ok (), array)
        | some center => array.tune center

variable [Component R] [Sample C R] [Source ρ C]

/-- Locks the receivers and begins to stitch their streams. Streams that can be locked but not
stitched are let go of as they are. -/
def start (array : TiledArray τ ρ C π F) : TiledStart τ ρ C π F :=
  let started := array.locked.start
  let array := { array with locked := started.array }
  match started.outcome with
  | .error failure => ⟨.error failure, started.retired, array⟩
  | .ok session =>
      match Stitch.Stitcher.start array.locked.planner array.settings session.readers
          array.locked.cancelled with
      | .error cause => ⟨.fail cause, session.unrotated, array⟩
      | .ok stitcher =>
          ⟨.ok array.sessions.length, [],
            { array with sessions := array.sessions ++ [stitcher] }⟩

/-- A tiled array is a receiver itself. Its streams share its token and stay in it, so what a start
answers is the index of the new session. -/
instance : Receiver (TiledArray τ ρ C π F) Nat F where
  rate := rate
  setRate := setRate
  tune := tune
  start array :=
    let started := array.start
    (started.outcome, started.array)
  switchNoise _ := none

end

/-- Acts on a session, which sees the token of the array, and may cancel it. -/
def inSession {α : Type} (array : TiledArray τ ρ C π F) (index : Nat)
    (act : TiledSession ρ C π → α × TiledSession ρ C π) :
    Option (α × TiledArray τ ρ C π F) :=
  match array.sessions[index]? with
  | none => none
  | some session =>
      let (answer, session) := act { session with cancelled := array.locked.cancelled }
      some (answer,
        { array with
          sessions := array.sessions.set index session
          locked := { array.locked with cancelled := session.cancelled } })

end TiledArray

end Wideband
