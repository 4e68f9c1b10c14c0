import Wideband.Error

namespace Wideband

/-!
What the two ends of a pipe share: a bounded queue of blocks, the error that ended the pipe, and
a wake-up for a reader that waits. Each operation of this module is one indivisible action; the
calls on a pipe are sequences of them.

The error is recorded first and the wake-up given second, so a reader that is woken finds it.
-/

structure Channel (C : Type) where
  capacity : Nat
  blocks : List (Array C)
  /-- The error that ended the pipe, the first one that was recorded. -/
  latched : Option Error
  /-- The wake-up has been given. -/
  released : Bool
  writerGone : Bool
  readerGone : Bool

inductive Take (C : Type) where
  | block (samples : Array C)
  | empty
  | gone

inductive Put where
  | queued
  | full
  | gone
deriving DecidableEq

namespace Channel

variable {C : Type}

def ofCapacity (capacity : Nat) : Channel C :=
  ⟨capacity, [], none, false, false, false⟩

def take (channel : Channel C) : Take C × Channel C :=
  match channel.blocks with
  | block :: rest => (.block block, { channel with blocks := rest })
  | [] => (if channel.writerGone then .gone else .empty, channel)

def put (channel : Channel C) (block : Array C) : Put × Channel C :=
  if channel.readerGone then (.gone, channel)
  else if channel.capacity ≤ channel.blocks.length then (.full, channel)
  else (.queued, { channel with blocks := channel.blocks ++ [block] })

def record (channel : Channel C) (cause : Error) : Channel C :=
  match channel.latched with
  | some _ => channel
  | none => { channel with latched := some cause }

def release (channel : Channel C) : Channel C :=
  { channel with released := true }

def latch (channel : Channel C) (cause : Error) : Channel C :=
  (channel.record cause).release

@[simp] theorem latched_latch (channel : Channel C) (cause : Error) :
    (channel.latch cause).latched = some (channel.latched.getD cause) := by
  cases ended : channel.latched <;> simp [latch, record, release, ended]

@[simp] theorem blocks_latch (channel : Channel C) (cause : Error) :
    (channel.latch cause).blocks = channel.blocks := by
  cases ended : channel.latched <;> simp [latch, record, release, ended]

/-- The error of a channel that has nothing more to give. -/
def closedError (channel : Channel C) : Error :=
  channel.latched.getD .pipeClosed

def dropWriter (channel : Channel C) : Channel C :=
  { channel with writerGone := true }

/-- The reader is gone, and the queue with it. -/
def dropReader (channel : Channel C) : Channel C :=
  { channel with readerGone := true, blocks := [] }

end Channel

end Wideband
