import Wideband.Recording.Bytes
import Wideband.Recording.Library

namespace Wideband.Recording

/-!
The header of a recording: a RIFF container whose `fmt ` chunk tells how values are stored and
whose `data` chunk holds them. `Header.parse` reads it from the front of a file, `Stored.header`
writes it.
-/

/-- A layout whose values take a number of bytes that some of their bits may leave unused. -/
structure Stored extends Layout where
  bytes : Nat

structure Header where
  stored : Stored
  /-- Number of values, over all channels. -/
  values : Nat

def tag (name : String) : List UInt8 :=
  name.toList.map fun letter => UInt8.ofNat letter.toNat

/-- The identifier of an encoding in a long `fmt ` chunk starts with the number of its short tag
and goes on like this. -/
def encodingTail : List UInt8 :=
  [0x00, 0x00, 0x00, 0x00, 0x10, 0x00, 0x80, 0x00, 0x00, 0xaa, 0x00, 0x38, 0x9b, 0x71]

def integerTag : Nat := 1

def floatTag : Nat := 3

def longTag : Nat := 0xfffe

namespace Parse

def integerLayout (length : Nat) (stored : Stored) : Parse Stored := do
  if length = 16 then return stored
  else if length = 18 ∨ length = 40 then
    let _ ← bytes 2
    if stored.bits = 8 ∨ stored.bits = 16 ∨ stored.bits = 24 then
      if length = 40 then
        let _ ← bytes 22
      return stored
    else fail (.illFormed "bits per sample is not 8, 16 or 24")
  else fail (.illFormed "unexpected fmt chunk size")

def floatLayout (length : Nat) (stored : Stored) : Parse Stored := do
  if length ≠ 16 ∧ length ≠ 18 then fail (.illFormed "unexpected fmt chunk size")
  else
    if length = 18 then
      if (← number 2) ≠ 0 then fail (.illFormed "unexpected extension size")
    if stored.bits = 32 then return { stored with floating := true }
    else fail (.illFormed "bits per sample is not 32")

/-- Consumes the rest of a long `fmt ` chunk. The number of valid bits, where given, replaces the
number of stored ones. -/
def longLayout (length : Nat) (stored : Stored) : Parse Stored := do
  if length < 40 then fail (.illFormed "unexpected fmt chunk size")
  else
    if (← number 2) ≠ 22 then fail (.illFormed "unexpected extension size")
    let validBits ← number 2
    let _ ← bytes 4
    let encoding ← bytes 16
    let bits := if validBits = 0 then stored.bits else validBits
    if encoding = littleEndian 2 integerTag ++ encodingTail then return { stored with bits }
    else if encoding = littleEndian 2 floatTag ++ encodingTail then
      return { stored with bits, floating := true }
    else fail .unsupportedEncoding

def layout (length : Nat) : Parse Stored := do
  if length < 16 then fail (.illFormed "invalid fmt chunk size")
  else
    let encoding ← number 2
    let channels ← number 2
    let rate ← number 4
    let byteRate ← number 4
    let block ← number 2
    let bits ← number 2
    let stored : Stored := ⟨⟨false, channels, rate, bits⟩, block / channels⟩
    if channels = 0 then fail (.illFormed "file contains zero channels")
    -- the header has sixteen bits for the stored size of a value in bits
    else if 8 * stored.bytes < bits ∨ 0x10000 ≤ 8 * stored.bytes then
      fail (.illFormed "sample bits exceeds size of sample")
    else if byteRate ≠ block * rate then fail (.illFormed "inconsistent fmt chunk")
    else if bits % 8 ≠ 0 then fail (.illFormed "bits per sample is not a multiple of 8")
    else if bits = 0 then fail (.illFormed "bits per sample is 0")
    else if encoding = integerTag then integerLayout length stored
    else if encoding = floatTag then floatLayout length stored
    else if encoding = longTag then longLayout length stored
    else fail .unsupportedEncoding

/-- The layout of the file and the length of its `data` chunk, from the first chunk on. Every
chunk takes eight bytes at least, so as many steps as there are bytes left are enough. -/
def chunks : Nat → Option Stored → Parse (Stored × Nat)
  | 0, _ => fun _ => .error (.transfer .exhausted)
  | steps + 1, known => do
      let name ← bytes 4
      let length ← number 4
      if name = tag "fmt " then chunks steps (some (← layout length))
      else if name = tag "fact" then
        let _ ← bytes 4
        chunks steps known
      else if name = tag "data" then
        match known with
        | some stored => return (stored, length)
        | none => fail (.illFormed "missing fmt chunk")
      else
        let _ ← bytes length
        chunks steps known

end Parse

def Header.parse : Parse Header := do
  if (← Parse.bytes 4) ≠ tag "RIFF" then Parse.fail (.illFormed "no RIFF tag found")
  else
    let _ ← Parse.bytes 4
    if (← Parse.bytes 4) ≠ tag "WAVE" then Parse.fail (.illFormed "no WAVE tag found")
    else
      let (stored, length) ← Parse.chunks ((← get).length + 1) none
      let values := length / stored.bytes
      if values * stored.bytes ≠ length then
        Parse.fail (.illFormed "data chunk length is not a multiple of sample size")
      else if values % stored.channels ≠ 0 then
        Parse.fail (.illFormed "invalid data chunk length")
      else return ⟨stored, values⟩

def Stored.ofLayout (layout : Layout) : Stored :=
  { layout with bytes := (layout.bits + 7) / 8 }

def Stored.header (stored : Stored) (length : Nat) : List UInt8 :=
  let block := stored.bytes * stored.channels
  let encoding := if stored.floating then floatTag else integerTag
  let body :=
    tag "WAVE" ++ tag "fmt " ++ littleEndian 4 40 ++ littleEndian 2 longTag ++
      littleEndian 2 stored.channels ++ littleEndian 4 stored.rate ++
      littleEndian 4 (stored.rate * block) ++ littleEndian 2 block ++
      littleEndian 2 (8 * stored.bytes) ++ littleEndian 2 22 ++ littleEndian 2 stored.bits ++
      littleEndian 4 3 ++ littleEndian 2 encoding ++ encodingTail ++
      tag "data" ++ littleEndian 4 length
  tag "RIFF" ++ littleEndian 4 (body.length + length) ++ body

end Wideband.Recording
