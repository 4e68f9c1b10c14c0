import Wideband.Array.Tiling
import Wideband.Proofs.Spectrum.Binning
import Wideband.Proofs.Stitch.Stacking
import Wideband.Stitch.Settings

namespace Wideband

open Dft

attribute [local instance] Frequency.exact

theorem tiling_turns (center : ℝ) (rate : ℕ) {count index : ℕ} (inside : index < count) :
    ∃ turns : ℤ, (tiling center rate count)[index]? =
      some (center + (index + 1 / 2) * rate + turns * (count * rate)) := by
  have listed : (List.range count)[index]? = some index := by simp [inside]
  simp only [tiling, List.getElem?_map, listed, Option.map_some, Frequency.ofInt_real,
    Frequency.half_real, Int.cast_natCast]
  by_cases upper : count ≤ 2 * index
  · refine ⟨-1, ?_⟩
    rw [if_pos upper]
    congr 1
    push_cast
    ring
  · refine ⟨0, ?_⟩
    rw [if_neg upper]
    congr 1
    push_cast
    ring

namespace Stitch.Bench

variable {π : Type} {planner : Planner ℂ π}

/-- What receiver `index` hears at a whole number of bins from its centre is in the stitched block at
the bin that stands for the frequency it was sent at, but for half a bin if the length is odd. -/
theorem shows_tuned (exact : planner.IsFourier) {inputs length : ℕ} (room : 0 < length)
    {bench : Bench ℂ π} (ready : bench.Ready planner inputs length) {buffers : List (Buffer ℂ)}
    (paired : buffers.length = inputs) (made : (bench.make planner buffers).result = .ok ())
    {rate : ℕ} (positive : 0 < rate) (center : ℝ) {index : ℕ} (inside : index < inputs) {step : ℤ}
    (within : |(step * (rate / length) : ℝ)| < rate / 2) :
    ∃ (block : Array ℂ) (source bin : ℕ) (tuned shown : ℝ) (turns : ℤ),
      buffers[index]? = some (.complex block) ∧
      (Grid.mk length rate .zeroFirst).binOf (step * (rate / length) : ℝ) = .ok source ∧
      (Grid.mk length rate .negativeFirst).binOf (step * (rate / length) : ℝ) = .ok bin ∧
      entry (transform .forward (bench.make planner buffers).bench.output) (index * length + bin) =
        inputs * entry (transform .forward block) source ∧
      (tiling center rate inputs)[index]? = some tuned ∧
      (Grid.mk (inputs * length) (inputs * rate) .zeroFirst).frequencyOf (index * length + bin) =
        .ok shown ∧
      tuned + step * (rate / length) =
        center + shown + (length % 2 : ℕ) * (rate / (2 * length)) + turns * (inputs * rate) := by
  obtain ⟨_, _, blocks, rfl, _, joined⟩ := ready.make exact room paired made
  rw [List.length_map] at paired
  subst paired
  have near := Grid.step_within room positive within
  have around := abs_le.mp (le_refl |step|)
  have middle := Grid.place_ascending length rate near
  have held : (Grid.mk length rate .negativeFirst).binOf (step * (rate / length) : ℝ) = _ :=
    Grid.binOf_multiple room positive within
  generalize (Grid.mk length rate .negativeFirst).place step = bin at middle held
  have bound : bin < length := by omega
  have whole : index * length + bin < blocks.length * length :=
    calc index * length + bin < (index + 1) * length := by rw [Nat.succ_mul]; omega
      _ ≤ blocks.length * length := Nat.mul_le_mul_right _ inside
  have source : (Grid.mk length rate .zeroFirst).place step =
      (((bin : ℤ) - (length / 2 : ℕ)) % length).toNat := by
    rw [middle, add_sub_cancel_right]
    change ((step + 0) % length).toNat = _
    rw [add_zero]
  obtain ⟨first, tuned⟩ := tiling_turns center rate inside
  obtain ⟨second, shown⟩ := Grid.frequencyOf_turns
    ⟨blocks.length * length, blocks.length * rate, .zeroFirst⟩ (Nat.zero_lt_of_lt whole) whole
  refine ⟨blocks[index], _, bin, _, _, first - second, by simp [inside],
    Grid.binOf_multiple room positive within, held, ?_, tuned, shown, ?_⟩
  · rw [source]
    exact joined.bins index inside bin bound
  · have raised : (bin : ℝ) = step + (length / 2 : ℕ) := by
      have cast := congrArg (Int.cast : ℤ → ℝ) middle
      rwa [Int.cast_add, Int.cast_natCast, Int.cast_natCast] at cast
    have count : (blocks.length : ℝ) ≠ 0 := by
      have some : 0 < blocks.length := Nat.zero_lt_of_lt inside
      exact_mod_cast some.ne'
    have size : (length : ℝ) ≠ 0 := by exact_mod_cast room.ne'
    have half : (length : ℝ) = 2 * (length / 2 : ℕ) + (length % 2 : ℕ) := by
      exact_mod_cast (Nat.div_add_mod length 2).symm
    have ratio : ((blocks.length * rate : ℕ) / (blocks.length * length : ℕ) : ℝ) = rate / length := by
      push_cast
      field_simp
    simp only [Grid.origin, ratio]
    push_cast
    rw [raised]
    field_simp
    linear_combination (rate : ℝ) * half

theorem shows_tuned_odd :
    ∃ (bench : Bench ℂ Plan) (tuned shown : ℝ) (bin : ℕ) (turns : ℤ),
      bench.Ready (Planner.ofKernel Dft.transform) 2 3 ∧
      (bench.make (Planner.ofKernel Dft.transform)
        [.complex #[1, 0, 0], .complex #[0, 1, 0]]).result = .ok () ∧
      |((1 : ℤ) * ((48000 : ℕ) / (3 : ℕ)) : ℝ)| < (48000 : ℕ) / 2 ∧
      (tiling (0 : ℝ) 48000 2)[1]? = some tuned ∧
      (Grid.mk (2 * 3) (2 * 48000) .zeroFirst).frequencyOf (1 * 3 + bin) = .ok shown ∧
      tuned + (1 : ℤ) * ((48000 : ℕ) / (3 : ℕ)) =
        0 + shown + (3 % 2 : ℕ) * ((48000 : ℕ) / (2 * (3 : ℕ))) + turns * ((2 : ℕ) * (48000 : ℕ)) := by
  obtain ⟨bench, prepared⟩ : ∃ bench : Bench ℂ Plan,
      prepare (Planner.ofKernel Dft.transform) 2 3 = .ok bench := ⟨_, rfl⟩
  have ready := ready_prepare prepared
  let blocks : List (Array ℂ) := [#[1, 0, 0], #[0, 1, 0]]
  have made : (bench.make (Planner.ofKernel Dft.transform) (blocks.map .complex)).result = .ok () :=
    ready.makes Planner.isFourier_ofKernel (Planner.reliable_ofKernel _) rfl (by simp [blocks])
  have within : |((1 : ℤ) * ((48000 : ℕ) / (3 : ℕ)) : ℝ)| < (48000 : ℕ) / 2 := by norm_num [abs_lt]
  obtain ⟨_, _, bin, tuned, shown, turns, _, _, _, _, tiled, found, agrees⟩ :=
    shows_tuned Planner.isFourier_ofKernel (by decide) ready rfl made (by decide) 0
      (by decide : 1 < 2) within
  exact ⟨bench, tuned, shown, bin, turns, ready, made, within, tiled, found, agrees⟩

/-- With blocks of three samples a receiver tuned to 1500 Hz is shown at 1000 Hz. -/
theorem shown_beside_tuned :
    ∃ tuned shown : ℝ, (Settings.mk 3 4).check = .ok () ∧ tiling (0 : ℝ) 3000 1 = [tuned] ∧
      (Grid.mk 3 3000 .negativeFirst).binOf (0 : ℝ) = .ok 1 ∧
      (Grid.mk (1 * 3) (1 * 3000) .zeroFirst).frequencyOf (0 * 3 + 1) = .ok shown ∧
      ∀ turns : ℤ, tuned + 0 ≠ 0 + shown + turns * (1 * 3000) := by
  have held : (Grid.mk 3 3000 .negativeFirst).binOf ((0 : ℤ) * ((3000 : ℕ) / (3 : ℕ)) : ℝ) = .ok 1 :=
    Grid.binOf_multiple (by decide) (by decide) (by norm_num)
  rw [Int.cast_zero, zero_mul] at held
  refine ⟨1500, 1000, rfl, ?_, held, ?_, fun turns same => ?_⟩
  · simp [tiling]
    norm_num
  · have index : (Grid.mk (1 * 3) (1 * 3000) .zeroFirst).signedIndex (0 * 3 + 1) = 1 := by decide
    rw [Grid.frequencyOf, if_pos (by decide), index, Grid.bandwidth_real]
    congr 1
    norm_num
  · have whole : (500 : ℤ) = turns * 3000 := by
      have real : (500 : ℝ) = turns * 3000 := by linarith
      exact_mod_cast real
    omega

end Stitch.Bench

end Wideband
