import Wideband.Sample.Arithmetic
import Wideband.Spectrum.Grid

namespace Wideband

structure Spectrum (C : Type) where
  bins : Array C
  rate : Nat
  order : Order

namespace Spectrum

variable {C R : Type}

def grid (spectrum : Spectrum C) : Grid :=
  ⟨spectrum.bins.size, spectrum.rate, spectrum.order⟩

def rotateLeft (bins : Array C) (count : Nat) : Array C :=
  bins.extract count bins.size ++ bins.extract 0 count

def rotateRight (bins : Array C) (count : Nat) : Array C :=
  rotateLeft bins (bins.size - count)

@[simp] theorem size_rotateLeft (bins : Array C) (count : Nat) :
    (rotateLeft bins count).size = bins.size := by
  simp [rotateLeft]
  omega

@[simp] theorem size_rotateRight (bins : Array C) (count : Nat) :
    (rotateRight bins count).size = bins.size :=
  size_rotateLeft bins _

/-- Stores the bins in the other order. For an odd size the half below 0 Hz is the smaller one,
so the two directions rotate by the same count but opposite ways. -/
def shift (spectrum : Spectrum C) : Spectrum C :=
  let half := spectrum.bins.size / 2
  let bins := match spectrum.order with
    | .zeroFirst => rotateRight spectrum.bins half
    | .negativeFirst => rotateLeft spectrum.bins half
  { spectrum with bins, order := spectrum.order.flipped }

def shiftScaled [Sample C R] (spectrum : Spectrum C) (factor : R) : Spectrum C :=
  let shifted := spectrum.shift
  { shifted with bins := shifted.bins.map (Sample.scale · factor) }

end Spectrum

end Wideband
