import Wideband.Sample.Arithmetic

namespace Wideband

structure Complex32 where
  re : Float32
  im : Float32

namespace Complex32

def zero : Complex32 := ⟨0, 0⟩

def one : Complex32 := ⟨1, 0⟩

def add (a b : Complex32) : Complex32 :=
  ⟨a.re + b.re, a.im + b.im⟩

def mul (a b : Complex32) : Complex32 :=
  ⟨a.re * b.re - a.im * b.im, a.re * b.im + a.im * b.re⟩

/-- In double precision, rounded once, so that it neither overflows nor underflows on the way. -/
def magnitude (z : Complex32) : Float32 :=
  (z.re.toFloat * z.re.toFloat + z.im.toFloat * z.im.toFloat).sqrt.toFloat32

end Complex32

instance : Inhabited Complex32 := ⟨.zero⟩

instance : Component Float32 where
  zero := 0
  one := 1
  ofInt := Float32.ofInt
  same a b := a == b
  atLeast a b := b ≤ a
  exceeds a b := b < a

instance : Sample Complex32 Float32 where
  zero := .zero
  one := .one
  add := .add
  mul := .mul
  ofParts re im := ⟨re, im⟩
  re z := z.re
  im z := z.im
  same a b := a.re == b.re && a.im == b.im
  conj z := ⟨z.re, -z.im⟩
  scale z factor := ⟨z.re * factor, z.im * factor⟩
  divide z divisor := ⟨z.re / divisor, z.im / divisor⟩
  power z := z.re * z.re + z.im * z.im
  magnitude := Complex32.magnitude
  angle z := Float32.atan2 z.im z.re
  unit angle := ⟨angle.cos, angle.sin⟩

end Wideband
