import Wideband.Sample.Complex32
import Wideband.Transform.Planner

namespace Wideband

/-!
The discrete Fourier transform of single-precision blocks of any length. A block is split by the
smallest prime factor of its length into interleaved parts, whose transforms are combined bin by
bin; a block of prime length is combined from its single samples. Parts are summed in double
precision and rounded once at the end.
-/

namespace Fourier

structure Point where
  re : Float
  im : Float

instance : Inhabited Point := ⟨⟨0, 0⟩⟩

namespace Point

def add (a b : Point) : Point := ⟨a.re + b.re, a.im + b.im⟩

def mul (a b : Point) : Point :=
  ⟨a.re * b.re - a.im * b.im, a.re * b.im + a.im * b.re⟩

end Point

/-- The smallest divisor of `number` that is at least `candidate`, looked for among the next
`steps` numbers; `number` itself if there is none. -/
def divisorFrom (number candidate : Nat) : Nat → Nat
  | 0 => number
  | steps + 1 =>
      if number < candidate * candidate then number
      else if number % candidate = 0 then candidate
      else divisorFrom number (candidate + 1) steps

def smallestFactor (number : Nat) : Nat :=
  divisorFrom number 2 number

/-- The point `exp (2 * pi * i * index / length)`. The angle is reduced to one quarter of a turn,
so that whole quarters are exact. -/
def onCircle (index length : Nat) : Point :=
  let quarter := 4 * index / length % 4
  let angle := 3.141592653589793 / 2 * Float.ofNat (4 * index % length) / Float.ofNat length
  match quarter with
  | 0 => ⟨angle.cos, angle.sin⟩
  | 1 => ⟨-angle.sin, angle.cos⟩
  | 2 => ⟨-angle.cos, -angle.sin⟩
  | _ => ⟨angle.sin, -angle.cos⟩

/-- The factors of a transform of the given length: equidistant points on the unit circle,
clockwise for a forward transform. -/
def circle (direction : Direction) (length : Nat) : Array Point :=
  (Array.range length).map fun index =>
    let point := onCircle index length
    match direction with
    | .forward => ⟨point.re, -point.im⟩
    | .backward => point

/-- The transform of the `count` points of `block` at `offset`, `offset + stride`, and so on.
With `depth` splits left; every split at least halves the count. -/
def strided (twiddles : Array Point) (block : Array Point) (count offset stride : Nat) :
    Nat → Array Point
  | 0 => (Array.range count).map fun index => block[offset + index * stride]!
  | depth + 1 =>
      if count ≤ 1 then (Array.range count).map fun index => block[offset + index * stride]!
      else
        let factor := smallestFactor count
        let part := count / factor
        let parts := (Array.range factor).map fun index =>
          strided twiddles block part (offset + index * stride) (stride * factor) depth
        (Array.range count).map fun bin =>
          (List.range factor).foldl
            (fun sum index =>
              let twiddle := twiddles[index * bin * stride % twiddles.size]!
              let bins := parts[index]!
              sum.add (twiddle.mul bins[bin % part]!))
            ⟨0, 0⟩

def points (direction : Direction) (block : Array Point) : Array Point :=
  strided (circle direction block.size) block block.size 0 1 (block.size.log2 + 1)

end Fourier

def fourier : Kernel Complex32 := fun direction block =>
  let points : Array Fourier.Point := block.map fun z => ⟨z.re.toFloat, z.im.toFloat⟩
  (Fourier.points direction points).map fun z => ⟨z.re.toFloat32, z.im.toFloat32⟩

theorem Fourier.size_strided (twiddles block : Array Point) (count offset stride depth : Nat) :
    (strided twiddles block count offset stride depth).size = count := by
  cases depth with
  | zero => simp [strided]
  | succ depth =>
      unfold strided
      split <;> simp

@[simp] theorem size_fourier (direction : Direction) (block : Array Complex32) :
    (fourier direction block).size = block.size := by
  simp [fourier, Fourier.points, Fourier.size_strided]

def Planner.fourier : Planner Complex32 Plan :=
  .ofKernel Wideband.fourier

end Wideband
