import Wideband.Array.Tiled
import Wideband.Simulation.ScriptedReceiver

namespace Wideband

inductive Begun where
  | retired (feed : Feed)
  | session (session index : Nat)

/-- The streams of each receiver, the oldest first. -/
abbrev Roster := List (List Begun)

namespace Roster

def enter (roster : Roster) (begun : List Begun) : Roster :=
  roster.zipIdx.map fun (entries, index) =>
    match begun[index]? with
    | some entry => entries ++ [entry]
    | none => entries

def enterRetired (roster : Roster) (streams : List (Converted Feed Complex32)) : Roster :=
  roster.enter (streams.map fun stream => .retired stream.inner)

def enterSession (roster : Roster) (session : Nat) : Roster :=
  roster.enter ((List.range roster.length).map (.session session))

/-- How often the scripts of one receiver were closed; `find` tells the stream at an index of a
session. -/
def closes (find : Nat → Nat → Option (Rotated (Converted Feed Complex32) Complex32))
    (entries : List Begun) : List Nat :=
  entries.flatMap fun
    | .retired feed => feed.closes
    | .session session index => ((find session index).map (·.inner.inner.closes)).getD []

/-- How often the scripts of each receiver were closed. Those of a stream that could not be put
together never were. -/
def tally (roster : Roster) (receivers : List ScriptedReceiver)
    (find : Nat → Nat → Option (Rotated (Converted Feed Complex32) Complex32)) :
    List (List Nat) :=
  List.zipWith
    (fun entries receiver => closes find entries ++ List.replicate receiver.abandoned 0)
    roster receivers

end Roster

structure LockedRig (π : Type) where
  array : LockedArray ScriptedReceiver Complex32 π
  sessions : Array (Session Feed Complex32)
  roster : Roster

namespace LockedRig

variable {π : Type}

def ofArray (array : LockedArray ScriptedReceiver Complex32 π) : LockedRig π :=
  ⟨array, #[], array.receivers.map fun _ => []⟩

def start (rig : LockedRig π) : Outcome (Session Feed Complex32) × LockedRig π :=
  let started := rig.array.start
  match started.outcome with
  | .ok session =>
      (.ok session,
        ⟨started.array, rig.sessions.push session, rig.roster.enterSession rig.sessions.size⟩)
  | .error failure =>
      (.error failure,
        ⟨started.array, rig.sessions, rig.roster.enterRetired started.retired⟩)

def setLast (rig : LockedRig π) (session : Session Feed Complex32) : LockedRig π :=
  { rig with sessions := rig.sessions.pop.push session }

def closes (rig : LockedRig π) : List (List Nat) :=
  rig.roster.tally rig.array.receivers fun session index =>
    (rig.sessions[session]?).bind (·.readers[index]?)

end LockedRig

structure TiledRig (π : Type) where
  array : TiledArray ScriptedReceiver Feed Complex32 π Float
  roster : Roster

namespace TiledRig

variable {π : Type}

def ofArray (array : TiledArray ScriptedReceiver Feed Complex32 π Float) : TiledRig π :=
  ⟨array, array.locked.receivers.map fun _ => []⟩

def start (rig : TiledRig π) : Outcome Nat × TiledRig π :=
  let started := rig.array.start
  match started.outcome with
  | .ok session => (.ok session, ⟨started.array, rig.roster.enterSession session⟩)
  | .error failure => (.error failure, ⟨started.array, rig.roster.enterRetired started.retired⟩)

def closes (rig : TiledRig π) : List (List Nat) :=
  rig.roster.tally rig.array.locked.receivers fun session index =>
    (rig.array.sessions[session]?).bind (·.inputs[index]?)

end TiledRig

end Wideband
