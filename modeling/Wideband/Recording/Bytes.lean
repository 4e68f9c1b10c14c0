import Wideband.Error

namespace Wideband.Recording

def ofLittleEndian : List UInt8 → Nat
  | [] => 0
  | byte :: rest => byte.toNat + 256 * ofLittleEndian rest

def littleEndian : Nat → Nat → List UInt8
  | 0, _ => []
  | count + 1, number => UInt8.ofNat (number % 256) :: littleEndian count (number / 256)

@[simp] theorem length_littleEndian (count number : Nat) :
    (littleEndian count number).length = count := by
  induction count generalizing number with
  | zero => rfl
  | succ count ih => simp [littleEndian, ih]

theorem ofLittleEndian_littleEndian {count number : Nat} (fits : number < Nat.pow 256 count) :
    ofLittleEndian (littleEndian count number) = number := by
  induction count generalizing number with
  | zero =>
      have none : number = 0 := by simpa using fits
      simp [littleEndian, ofLittleEndian, none]
  | succ count ih =>
      have upper : number / 256 < Nat.pow 256 count :=
        (Nat.div_lt_iff_lt_mul (by decide)).mpr fits
      simp only [littleEndian, ofLittleEndian, ih upper, UInt8.toNat_ofNat']
      omega

/-- The number that the bytes stand for in two's complement. -/
def signedLittleEndian (bytes : List UInt8) : Int :=
  let number := ofLittleEndian bytes
  let bound := Nat.pow 256 bytes.length
  if 2 * number < bound then number else (number : Int) - bound

/-- Consumes bytes from the front of a file. -/
abbrev Parse (α : Type) := StateT (List UInt8) (Except Error) α

namespace Parse

def fail {α : Type} (cause : RecordingFault) : Parse α :=
  fun _ => .error (.recording cause)

def bytes (count : Nat) : Parse (List UInt8) := fun file =>
  if count ≤ file.length then .ok (file.take count, file.drop count)
  else .error (.transfer .exhausted)

def number (count : Nat) : Parse Nat := do
  return ofLittleEndian (← bytes count)

end Parse

end Wideband.Recording
