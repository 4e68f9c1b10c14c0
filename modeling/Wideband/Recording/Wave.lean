import Wideband.Recording.Header
import Wideband.Recording.Library

namespace Wideband.Recording

structure WaveWriter where
  stored : Stored
  words : Array UInt32

instance : Encoder WaveWriter (List UInt8) Float32 where
  -- The rate in bytes has a field of its own in the header, which it must fit.
  create layout :=
    let stored := Stored.ofLayout layout
    if stored.rate = 0 ∨ 0x100000000 ≤ stored.rate * stored.bytes * stored.channels then
      .error .fault
    else .ok ⟨stored, #[]⟩
  put writer value :=
    if writer.stored.floating ∧ writer.stored.bits = 32 then
      (.ok (), { writer with words := writer.words.push value.toBits })
    else (.error (.recording .unsupportedEncoding), writer)
  finish writer :=
    let values := writer.words.toList.flatMap fun word => littleEndian 4 word.toNat
    (.ok (), writer.stored.header values.length ++ values)

structure WaveReader where
  stored : Stored
  /-- Number of values in the file, over all channels. -/
  values : Nat
  left : Nat
  bytes : List UInt8

namespace WaveReader

def ofFile (file : List UInt8) : Except Error WaveReader :=
  match Header.parse.run file with
  | .error cause => .error cause
  | .ok (header, bytes) => .ok ⟨header.stored, header.values, header.values, bytes⟩

def floatForm (stored : Stored) : Option (Nat × (List UInt8 → Float32)) :=
  if stored.floating ∧ stored.bytes = 4 ∧ stored.bits = 32 then
    some (4, fun bytes => Float32.ofBits (UInt32.ofNat (ofLittleEndian bytes)))
  else none

def intForm (stored : Stored) : Option (Nat × (List UInt8 → Int)) :=
  if stored.floating then none
  else if stored.bytes = 1 ∧ stored.bits = 8 then
    some (1, fun bytes => (ofLittleEndian bytes : Int) - 128)
  else if (stored.bytes = 2 ∧ stored.bits = 16) ∨ (stored.bytes = 3 ∧ stored.bits = 24) ∨
      (stored.bytes = 4 ∧ stored.bits = 32) then
    some (stored.bytes, signedLittleEndian)
  else if stored.bytes = 4 ∧ stored.bits = 24 then
    some (4, fun bytes => signedLittleEndian (bytes.take 3))
  else none

/-- The next value. One that can not be read counts as read, and a file that ends inside a value
loses the bytes it still had. -/
def next {α : Type} (form : Option (Nat × (List UInt8 → α))) (reader : WaveReader) :
    Option (Except Error α) × WaveReader :=
  if reader.left = 0 then (none, reader)
  else
    let reader := { reader with left := reader.left - 1 }
    match form with
    | none => (some (.error (.recording .unsupportedWidth)), reader)
    | some (size, value) =>
        let rest := { reader with bytes := reader.bytes.drop size }
        if size ≤ reader.bytes.length then (some (.ok (value (reader.bytes.take size))), rest)
        else (some (.error (.transfer .exhausted)), rest)

instance : Decoder WaveReader (List UInt8) Float32 where
  ofFile := ofFile
  layout reader := reader.stored.toLayout
  duration reader := reader.values / reader.stored.channels
  nextFloat reader := reader.next (floatForm reader.stored)
  nextInt reader := reader.next (intForm reader.stored)

end WaveReader

end Wideband.Recording
