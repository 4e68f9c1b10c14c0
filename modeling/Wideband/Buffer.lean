import Wideband.Error
import Wideband.Sample.Arithmetic

namespace Wideband

inductive Buffer (C : Type) where
  | complex (samples : Array C)
  | unsigned8 (pairs : Array (UInt8 × UInt8))
  | signed8 (pairs : Array (Int8 × Int8))
  | signed16 (pairs : Array (Int16 × Int16))

namespace Buffer

variable {C R : Type}

instance : Inhabited (Buffer C) := ⟨.complex #[]⟩

/-- A buffer at rest: all zero, and the byte below the middle for unsigned bytes. -/
def silent [Zero C] (format : Format) (size : Nat) : Buffer C :=
  match format with
  | .complex => .complex (Array.replicate size 0)
  | .unsigned8 => .unsigned8 (Array.replicate size (127, 127))
  | .signed8 => .signed8 (Array.replicate size (0, 0))
  | .signed16 => .signed16 (Array.replicate size (0, 0))

def format : Buffer C → Format
  | .complex _ => .complex
  | .unsigned8 _ => .unsigned8
  | .signed8 _ => .signed8
  | .signed16 _ => .signed16

def size : Buffer C → Nat
  | .complex samples => samples.size
  | .unsigned8 pairs => pairs.size
  | .signed8 pairs => pairs.size
  | .signed16 pairs => pairs.size

def bytes (buffer : Buffer C) : Nat :=
  buffer.size * buffer.format.bytes

def extract (buffer : Buffer C) (first last : Nat) : Buffer C :=
  match buffer with
  | .complex samples => .complex (samples.extract first last)
  | .unsigned8 pairs => .unsigned8 (pairs.extract first last)
  | .signed8 pairs => .signed8 (pairs.extract first last)
  | .signed16 pairs => .signed16 (pairs.extract first last)

def take (buffer : Buffer C) (count : Nat) : Buffer C :=
  buffer.extract 0 count

def drop (buffer : Buffer C) (count : Nat) : Buffer C :=
  buffer.extract count buffer.size

/-- The part of a buffer from index `first` up to index `last`; there is none where an index lies
outside the buffer or the two are in the wrong order. -/
def part? (buffer : Buffer C) (first last : Nat) : Option (Buffer C) :=
  if first ≤ last ∧ last ≤ buffer.size then some (buffer.extract first last) else none

/-- One buffer behind another of the same format; a buffer of another format adds nothing. -/
def append : Buffer C → Buffer C → Buffer C
  | .complex front, .complex rest => .complex (front ++ rest)
  | .unsigned8 front, .unsigned8 rest => .unsigned8 (front ++ rest)
  | .signed8 front, .signed8 rest => .signed8 (front ++ rest)
  | .signed16 front, .signed16 rest => .signed16 (front ++ rest)
  | front, _ => front

def overwrite (buffer : Buffer C) (first : Nat) (part : Buffer C) : Buffer C :=
  ((buffer.take first).append part).append (buffer.drop (first + part.size))

def samples : Buffer C → Except Error (Array C)
  | .complex samples => .ok samples
  | other => .error (.formatMismatch .complex other.format)

@[simp] theorem format_silent [Zero C] (format : Format) (size : Nat) :
    (silent format size : Buffer C).format = format := by
  cases format <;> rfl

@[simp] theorem size_silent [Zero C] (format : Format) (size : Nat) :
    (silent format size : Buffer C).size = size := by
  cases format <;> simp [silent, Buffer.size]

@[simp] theorem format_extract (buffer : Buffer C) (first last : Nat) :
    (buffer.extract first last).format = buffer.format := by
  cases buffer <;> rfl

@[simp] theorem size_extract (buffer : Buffer C) (first last : Nat) :
    (buffer.extract first last).size = min last buffer.size - first := by
  cases buffer <;> simp [extract, size]

@[simp] theorem format_take (buffer : Buffer C) (count : Nat) :
    (buffer.take count).format = buffer.format :=
  buffer.format_extract 0 count

@[simp] theorem size_take (buffer : Buffer C) (count : Nat) :
    (buffer.take count).size = min count buffer.size := by
  simp [take]

@[simp] theorem format_drop (buffer : Buffer C) (count : Nat) :
    (buffer.drop count).format = buffer.format :=
  buffer.format_extract count buffer.size

@[simp] theorem size_drop (buffer : Buffer C) (count : Nat) :
    (buffer.drop count).size = buffer.size - count := by
  simp [drop]

@[simp] theorem format_append (front rest : Buffer C) :
    (front.append rest).format = front.format := by
  cases front <;> cases rest <;> rfl

theorem size_append {front rest : Buffer C} (same : front.format = rest.format) :
    (front.append rest).size = front.size + rest.size := by
  cases front <;> cases rest <;> simp_all [append, size, format]

theorem append_take_drop (buffer : Buffer C) (count : Nat) :
    (buffer.take count).append (buffer.drop count) = buffer := by
  have covered : buffer.size ≤ max count buffer.size := Nat.le_max_right _ _
  cases buffer <;> simp_all [take, drop, extract, append, size]

def same [Sample C R] : Buffer C → Buffer C → Bool
  | .complex a, .complex b => a.size == b.size && (a.zip b).all fun (x, y) => Sample.same x y
  | .unsigned8 a, .unsigned8 b => a == b
  | .signed8 a, .signed8 b => a == b
  | .signed16 a, .signed16 b => a == b
  | _, _ => false

section Conversion

variable [Component R] [Sample C R]

def ofUnsigned8 (byte : UInt8) : R :=
  let middle : R := Component.ofInt 255 / Component.ofInt 2
  (Component.ofInt byte.toNat - middle) / middle

/-- A signed byte as a number in `[-1, 1)`; the lowest byte is exactly `-1`. -/
def ofSigned8 (byte : Int8) : R :=
  Component.ofInt byte.toInt / Component.ofInt 128

def ofSigned16 (word : Int16) : R :=
  Component.ofInt word.toInt / Component.ofInt 32767

def toComplex : Buffer C → Array C
  | .complex samples => samples
  | .unsigned8 pairs => pairs.map fun (i, q) => Sample.ofParts (ofUnsigned8 i) (ofUnsigned8 q)
  | .signed8 pairs => pairs.map fun (i, q) => Sample.ofParts (ofSigned8 i) (ofSigned8 q)
  | .signed16 pairs => pairs.map fun (i, q) => Sample.ofParts (ofSigned16 i) (ofSigned16 q)

/-- Converts the first `count` samples to complex ones and writes them to the front of
`destination`. The source must hold that many, and so must the destination. -/
def convertInto (source : Buffer C) (count : Nat) (destination : Array C) :
    Except Error (Array C) :=
  if source.size < count then .error (.bufferTooSmall count source.size)
  else if destination.size < count then .error (.bufferTooSmall count destination.size)
  else .ok ((source.take count).toComplex ++ destination.extract count destination.size)

end Conversion

end Buffer

end Wideband
