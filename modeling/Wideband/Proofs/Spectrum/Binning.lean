import Wideband.Proofs.Spectrum.Mapping
import Wideband.Proofs.Sample.Exact

namespace Wideband

@[reducible] noncomputable def Frequency.exact : Frequency ℝ where
  ofInt number := number
  below a b := decide (a < b)
  atMost a b := decide (a ≤ b)
  abs a := |a|
  round a := if 0 ≤ a then ⌊a + (1 : ℤ) / (2 : ℤ)⌋ else ⌈a - (1 : ℤ) / (2 : ℤ)⌉
  truncate a := if 0 ≤ a then ⌊a⌋ else ⌈a⌉

-- In this form it is `Frequency.ordered` of the real numbers, whose lemmas apply as they stand.
attribute [local instance] Frequency.exact

namespace Frequency

@[simp] theorem ofInt_real (number : ℤ) : (ofInt number : ℝ) = number := rfl

@[simp] theorem half_real : (half : ℝ) = 1 / 2 := by
  simp [half]

end Frequency

namespace Grid

variable {grid : Grid}

theorem bandwidth_real (grid : Grid) : (grid.bandwidth : ℝ) = grid.rate / grid.size :=
  bandwidth_ordered grid

theorem check_within (room : 0 < grid.size) {frequency : ℝ} (within : |frequency| < grid.rate / 2) :
    grid.check frequency = .ok () := by
  obtain ⟨above, below⟩ := abs_lt.mp within
  exact check_ok_iff.mpr ⟨room, above, below.le⟩

/-- The bin of a frequency that is a whole number of bins away from 0 Hz. -/
theorem binOf_multiple (room : 0 < grid.size) (positive : 0 < grid.rate) {step : ℤ}
    (within : |(step * (grid.rate / grid.size) : ℝ)| < grid.rate / 2) :
    grid.binOf (step * (grid.rate / grid.size) : ℝ) = .ok (grid.place step) := by
  refine binOf_ok_iff.mpr ⟨check_within room within, ?_⟩
  rw [indexOf_steps room positive]

theorem step_within {size rate : ℕ} (room : 0 < size) (positive : 0 < rate) {step : ℤ}
    (within : |(step * (rate / size) : ℝ)| < rate / 2) : 2 * |step| < size := by
  have width : (0 : ℝ) < size := by exact_mod_cast room
  have speed : (0 : ℝ) < rate := by exact_mod_cast positive
  rw [abs_mul, abs_of_pos (div_pos speed width), mul_div_assoc', div_lt_div_iff₀ width two_pos]
    at within
  have scaled : (rate : ℝ) * (2 * |(step : ℝ)|) < rate * size := by linarith
  have counted : (2 * |(step : ℝ)|) < size := lt_of_mul_lt_mul_left scaled speed.le
  exact_mod_cast counted

theorem place_ascending (size rate : ℕ) {step : ℤ} (within : 2 * |step| < size) :
    ((Grid.mk size rate .negativeFirst).place step : ℤ) = step + (size / 2 : ℕ) := by
  have around := abs_le.mp (le_refl |step|)
  have inside : (step + (size / 2 : ℕ)) % size = step + (size / 2 : ℕ) :=
    Int.emod_eq_of_lt (by omega) (by omega)
  change (((step + (size / 2 : ℕ)) % size).toNat : ℤ) = _
  rw [inside, Int.toNat_of_nonneg (by omega)]

/-- The frequency that is shown at a bin, up to turns around the grid. -/
theorem frequencyOf_turns (grid : Grid) (room : 0 < grid.size) {bin : ℕ}
    (inside : bin < grid.size) :
    ∃ turns : ℤ, grid.frequencyOf bin = .ok (((bin : ℝ) - grid.origin) *
      (grid.rate / grid.size) + turns * grid.rate) := by
  obtain ⟨turns, split⟩ := grid.signedIndex_turns bin
  have size : (grid.size : ℝ) ≠ 0 := by exact_mod_cast room.ne'
  have index : (bin : ℝ) = grid.signedIndex bin + grid.origin + turns * grid.size := by
    exact_mod_cast split
  refine ⟨-turns, ?_⟩
  rw [frequencyOf, if_pos inside, bandwidth_real, Frequency.ofInt_real, index]
  congr 1
  push_cast
  field_simp
  ring

end Grid

end Wideband
