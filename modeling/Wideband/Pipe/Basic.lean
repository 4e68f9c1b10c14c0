import Wideband.Buffer
import Wideband.Pipe.Channel

namespace Wideband

/-!
A pipe between one producer and one consumer of complex samples. Writes never wait: one that
finds the queue full ends the pipe with an overrun, and from then on every call on either end
fails with that error. Closing ends it in the same way. No sample is dropped silently.

A producer that stops for a reason of its own hands the reason over; the consumer first gets the
blocks queued before it. Dropping the writer drains the same way and ends as a closed pipe.

The first error that ends a pipe stays its error.
-/

structure Pipe (C : Type) where
  channel : Channel C
  rate : Nat
  pending : Array C

inductive Poll where
  | ready (result : Except Error Nat)
  | waiting

/-- What a read of a pipe leaves behind, or of a reader that has one inside. -/
structure Drawn (σ C : Type) where
  poll : Poll
  view : Buffer C
  reader : σ

namespace Error

/-- Errors that discard whatever is still queued. -/
def terminal : Error → Bool
  | .overrun => true
  | .pipeClosed => true
  | _ => false

end Error

namespace Pipe

variable {C : Type}

def ofCapacity (capacity rate : Nat) : Except Error (Pipe C) :=
  if capacity = 0 then .error (.misfit .noPipeBlocks) else .ok ⟨.ofCapacity capacity, rate, #[]⟩

def ending (pipe : Pipe C) : Option Error :=
  pipe.channel.latched

def closeWith (pipe : Pipe C) (cause : Error) : Pipe C :=
  { pipe with channel := pipe.channel.latch cause }

def close (pipe : Pipe C) : Pipe C :=
  pipe.closeWith .pipeClosed

/-- Ends the pipe, and answers the error that it ended with. -/
def refuse (pipe : Pipe C) (cause : Error) : Except Error Nat × Pipe C :=
  let pipe := pipe.closeWith cause
  (.error pipe.channel.closedError, pipe)

def write (pipe : Pipe C) (block : Array C) : Except Error Nat × Pipe C :=
  match pipe.channel.latched with
  | some cause => (.error cause, pipe)
  | none =>
      match pipe.channel.put block with
      | (.queued, channel) => (.ok block.size, { pipe with channel })
      | (.full, _) => pipe.refuse .overrun
      | (.gone, _) => pipe.refuse .pipeClosed

def writeBuffer (pipe : Pipe C) (buffer : Buffer C) : Except Error Nat × Pipe C :=
  match buffer.samples with
  | .error cause => (.error cause, pipe)
  | .ok samples => pipe.write samples

/-- The next queued block, or the error of a pipe that has nothing more to give, or nothing if
the producer has to act first. -/
def nextBlock (pipe : Pipe C) : Option (Except Error (Array C)) × Pipe C :=
  match pipe.channel.take with
  | (.block block, channel) => (some (.ok block), { pipe with channel })
  | (.gone, _) => (some (.error pipe.channel.closedError), pipe)
  | (.empty, _) =>
      match pipe.channel.latched with
      | some cause => (some (.error cause), pipe)
      | none => (none, pipe)

def deliver (pipe : Pipe C) (out : Array C) : Drawn (Pipe C) C :=
  let count := min out.size pipe.pending.size
  let delivered := pipe.pending.extract 0 count
  let pending := pipe.pending.extract count pipe.pending.size
  ⟨.ready (.ok count), .complex (delivered ++ out.extract count out.size), { pipe with pending }⟩

/-- Reads up to as many samples as the view holds, all from one block. -/
def read (pipe : Pipe C) (view : Buffer C) : Drawn (Pipe C) C :=
  match view with
  | .complex out =>
      match pipe.channel.latched.filter Error.terminal with
      | some cause => ⟨.ready (.error cause), view, pipe⟩
      | none =>
          if out.size = 0 then ⟨.ready (.ok 0), view, pipe⟩
          else if pipe.pending.size = 0 then
            match pipe.nextBlock with
            | (none, pipe) => ⟨.waiting, view, pipe⟩
            | (some (.error cause), pipe) => ⟨.ready (.error cause), view, pipe⟩
            | (some (.ok block), pipe) => { pipe with pending := block }.deliver out
          else pipe.deliver out
  | other => ⟨.ready (.error (.formatMismatch .complex other.format)), view, pipe⟩

def fillFrom (size : Nat) (pipe : Pipe C) (buffer : Buffer C) (stored : Nat) : Drawn (Pipe C) C :=
  if stored < size then
    let drawn := pipe.read (buffer.drop stored)
    let buffer := (buffer.take stored).append drawn.view
    match drawn.poll with
    | .waiting => ⟨.waiting, buffer, drawn.reader⟩
    | .ready (.error cause) => ⟨.ready (.error cause), buffer, drawn.reader⟩
    | .ready (.ok 0) => ⟨.ready (.error .endOfStream), buffer, drawn.reader⟩
    | .ready (.ok (more + 1)) => fillFrom size drawn.reader buffer (stored + (more + 1))
  else ⟨.ready (.ok stored), buffer, pipe⟩
termination_by size - stored

/-- Reads until the buffer is full, or the producer has to act first. -/
def fill (pipe : Pipe C) (buffer : Buffer C) : Drawn (Pipe C) C :=
  fillFrom buffer.size pipe buffer 0

def dropWriter (pipe : Pipe C) : Pipe C :=
  { pipe with channel := pipe.channel.dropWriter }

def dropReader (pipe : Pipe C) : Pipe C :=
  { pipe with channel := pipe.channel.dropReader }

end Pipe

end Wideband
