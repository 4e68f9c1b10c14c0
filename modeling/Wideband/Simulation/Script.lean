import Wideband.Simulation.Cyclic
import Wideband.Source.Basic

namespace Wideband

/-- What a scripted source does, and when. Reads are counted from one. -/
structure Script (C : Type) where
  samples : Buffer C
  rate : Nat
  chunk : Option Nat
  loops : Bool
  /-- Fails every read once so many samples were stored. -/
  failure : Option (Nat × Error)
  /-- Skips so many samples after each of the first so many reads. -/
  drift : Option (Nat × Nat)
  /-- Samples claimed beyond those stored. -/
  overclaim : Nat
  faultAt : Option Nat
  cancelAt : Option Nat
  /-- The read that lasts until the session is cancelled. -/
  lingerAt : Option Nat
  closeFailure : Option Error

structure Scripted (C : Type) where
  script : Script C
  position : Nat
  stored : Nat
  reads : Nat
  closes : Nat

namespace Scripted

variable {C : Type}

def ofScript (script : Script C) (position : Nat) : Scripted C :=
  ⟨script, position, 0, 0, 0⟩

/-- Number of samples that a read into a view of `size` samples stores; nothing when the position
lies behind the last sample. -/
def available (source : Scripted C) (size : Nat) : Option Nat :=
  let script := source.script
  let count := match script.chunk with
    | none => size
    | some chunk => min size chunk
  if script.loops && script.samples.size != 0 then some count
  else if script.samples.size < source.position then none
  else some (min count (script.samples.size - source.position))

def skipped (source : Scripted C) : Option Nat :=
  match source.script.drift with
  | none => none
  | some (distance, reads) => if source.reads ≤ reads then some distance else none

def target (source : Scripted C) (count : Nat) : Nat :=
  source.position + count + source.skipped.getD 0

/-- The source after it stored `count` samples in the read that is going on. A read that skips
counts its position around samples that repeat. -/
def advance (source : Scripted C) (count : Nat) : Scripted C :=
  let script := source.script
  let target := source.target count
  let position :=
    if source.skipped.isSome && script.loops && script.samples.size != 0 then
      target % script.samples.size
    else target
  { source with position, stored := source.stored + count }

def countable (source : Scripted C) (count : Nat) : Bool :=
  source.target count ≤ 0xffffffffffffffff &&
    count + source.script.overclaim ≤ 0xffffffffffffffff

def failing (source : Scripted C) : Option Error :=
  match source.script.failure with
  | none => none
  | some (threshold, cause) => if threshold ≤ source.stored then some cause else none

def signals (source : Scripted C) : Signals where
  cancels := source.script.cancelAt == some source.reads
  lingers := source.script.lingerAt == some source.reads

def read (source : Scripted C) (view : Buffer C) : Reading (Scripted C) C :=
  let source := { source with reads := source.reads + 1 }
  if source.script.faultAt = some source.reads then ⟨.error .fault, view, source, .none⟩
  else
    match source.failing with
    | some cause => ⟨.fail cause, view, source, source.signals⟩
    | none =>
        if source.script.samples.format = view.format then
          match source.available view.size with
          | none => ⟨.error .fault, view, source, source.signals⟩
          | some count =>
              let stretch := source.script.samples.cyclic source.position count
              let claim : Outcome Nat :=
                if source.countable count then .ok (count + source.script.overclaim)
                else .error .fault
              ⟨claim, stretch.append (view.drop count), source.advance count, source.signals⟩
        else
          ⟨.fail (.formatMismatch source.script.samples.format view.format), view, source,
            source.signals⟩

def close (source : Scripted C) : Except Error Unit × Scripted C :=
  let result := match source.script.closeFailure with
    | none => .ok ()
    | some cause => .error cause
  (result, { source with closes := source.closes + 1 })

instance : Source (Scripted C) C where
  format source := source.script.samples.format
  rate source := source.script.rate
  read := Scripted.read
  close := Scripted.close

end Scripted

end Wideband
