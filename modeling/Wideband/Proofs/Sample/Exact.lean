import Mathlib
import Wideband.Sample.Arithmetic

namespace Wideband

/-!
Exact samples: complex numbers with real parts, on which the arithmetic of samples is that of the
complex field. Comparisons are decided classically, so nothing here runs.
-/

noncomputable instance : Component ℝ where
  ofInt number := number
  same a b := decide (a = b)
  atLeast a b := decide (b ≤ a)
  exceeds a b := decide (b < a)

noncomputable instance : Sample ℂ ℝ where
  ofParts re im := ⟨re, im⟩
  re := Complex.re
  im := Complex.im
  same a b := decide (a = b)
  conj := starRingEnd ℂ
  scale z factor := z * factor
  divide z divisor := z / divisor
  power := Complex.normSq
  magnitude z := ‖z‖
  angle := Complex.arg
  unit angle := Complex.exp (angle * Complex.I)

namespace Component

@[simp] theorem same_real (a b : ℝ) : Component.same a b = true ↔ a = b :=
  decide_eq_true_iff

@[simp] theorem atLeast_real (a b : ℝ) : Component.atLeast a b = true ↔ b ≤ a :=
  decide_eq_true_iff

@[simp] theorem exceeds_real (a b : ℝ) : Component.exceeds a b = true ↔ b < a :=
  decide_eq_true_iff

@[simp] theorem reciprocal_real (count : ℕ) : (Component.reciprocal count : ℝ) = (count : ℝ)⁻¹ := by
  change (1 : ℝ) / ((count : ℤ) : ℝ) = _
  rw [one_div, Int.cast_natCast]

end Component

namespace Sample

@[simp] theorem same_complex (a b : ℂ) : Sample.same a b = true ↔ a = b :=
  decide_eq_true_iff

@[simp] theorem conj_complex (z : ℂ) : Sample.conj z = starRingEnd ℂ z := rfl

@[simp] theorem scale_complex (z : ℂ) (factor : ℝ) : Sample.scale z factor = z * factor := rfl

@[simp] theorem divide_complex (z : ℂ) (divisor : ℝ) : Sample.divide z divisor = z / divisor := rfl

@[simp] theorem power_complex (z : ℂ) : Sample.power z = Complex.normSq z := rfl

@[simp] theorem magnitude_complex (z : ℂ) : Sample.magnitude z = ‖z‖ := rfl

@[simp] theorem angle_complex (z : ℂ) : Sample.angle z = z.arg := rfl

@[simp] theorem unit_complex (angle : ℝ) :
    (Sample.unit angle : ℂ) = Complex.exp (angle * Complex.I) := rfl

end Sample

end Wideband
