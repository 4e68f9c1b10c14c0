import Wideband.Proofs.Spectrum.Mapping
import Wideband.Proofs.Transform.Echoes

namespace Wideband

open Complex

namespace Grid

variable {grid : Grid} {bin : ℕ}

theorem nearest_signedIndex (grid : Grid) (inside : bin < grid.size) :
    Nearest grid.size ((bin : ℤ) - grid.origin) (grid.signedIndex bin) := by
  obtain ⟨turns, split⟩ := grid.signedIndex_turns bin
  obtain ⟨above, below⟩ := signedIndex_within inside
  refine ⟨Int.modEq_iff_dvd.mpr ⟨turns, ?_⟩, above, below⟩
  rw [split]
  ring

theorem signedIndex_zeroFirst {length index : ℕ} (rate : ℕ) (inside : index < length) :
    (Grid.mk length rate .zeroFirst).signedIndex index = signedOffset index length := by
  have nearest := nearest_signedIndex ⟨length, rate, .zeroFirst⟩ inside
  simp only [origin, Nat.cast_zero, sub_zero] at nearest
  exact (nearest_signedOffset inside).unique nearest

variable (F : Type) [Field F] [LinearOrder F] [FloorRing F]

attribute [local instance] Frequency.ordered

attribute [local instance (low)]
  Frequency.toAdd Frequency.toSub Frequency.toMul Frequency.toDiv Frequency.toNeg

/-- The frequency that a grid shows at a bin lies a whole number of bandwidths from 0 Hz. -/
structure Shows (grid : Grid) (bin : ℕ) (steps : ℤ) : Prop where
  wide : 0 < (grid.bandwidth : F)
  shown : ∃ frequency : F, grid.frequencyOf bin = .ok frequency ∧ frequency / grid.bandwidth = steps

variable [IsStrictOrderedRing F]

theorem shows_signedIndex (inside : bin < grid.size) (positive : 0 < grid.rate) :
    grid.Shows F bin (grid.signedIndex bin) := by
  have width : (0 : F) < grid.rate / grid.size :=
    bandwidth_pos (Nat.zero_lt_of_lt inside) positive
  refine ⟨?_, _, frequencyOf_inside inside, ?_⟩
  · rw [bandwidth_ordered]
    exact width
  · rw [bandwidth_ordered]
    exact mul_div_cancel_right₀ _ width.ne'

theorem shows_signedOffset {length index rate : ℕ} (inside : index < length)
    (positive : 0 < rate) :
    (Grid.mk length rate .zeroFirst).Shows F index (signedOffset index length) := by
  rw [← signedIndex_zeroFirst rate inside]
  exact shows_signedIndex F inside positive

end Grid

/-- The peak of a block is the first of its loudest samples, and only a silent block has none. An
index stands for the one offset nearest to zero that is whole turns away from it, also where words
keep the lengths, and a grid of any rate that begins at 0 Hz shows the index that many bandwidths
from 0 Hz. So such a grid shows the peak of a correlation at the lag that the correlator measures. -/
theorem peaks_fold_like_bins (F : Type) [Field F] [LinearOrder F] [FloorRing F]
    [IsStrictOrderedRing F] {π : Type} (planner : Planner ℂ π) :
    (∀ samples : Array ℂ,
      (peak samples = none ↔ ∀ sample ∈ samples, sample = 0) ∧
      ((∃ sample ∈ samples, sample ≠ 0) →
        ∃ top, peak samples = some top ∧ IsLeast (loudest samples) top)) ∧
    (∀ length index : ℕ, index < length →
      (∀ offset, Nearest length index offset ↔ offset = signedOffset index length) ∧
      (length < 0x8000000000000000 →
        wordOffset (.ofNat index) (.ofNat length) = .ok (signedOffset index length)) ∧
      ∀ rate, 0 < rate →
        (Grid.mk length rate .zeroFirst).Shows F index (signedOffset index length)) ∧
    ∀ (correlator : Correlator ℂ π) (reference stream : Array ℂ) (label : ℕ) (lag : Lag ℂ π),
      correlator.lag planner reference stream label = lag → ∀ offset, lag.result = .ok offset →
        ∃ top, peak lag.correlator.output = some top ∧ ∀ rate, 0 < rate →
          (Grid.mk lag.correlator.output.size rate .zeroFirst).Shows F top offset := by
  refine ⟨fun samples => ⟨peak_eq_none_iff_silent, exists_peak⟩,
    fun length index inside => ⟨?_, wordOffset_ofNat inside, ?_⟩, ?_⟩
  · have nearest := nearest_signedOffset inside
    exact fun offset => ⟨nearest.unique, fun same => same ▸ nearest⟩
  · exact fun rate positive => Grid.shows_signedOffset F inside positive
  · rintro correlator reference stream label lag rfl offset measured
    obtain ⟨top, located, rfl⟩ := Correlator.peak_of_lag measured
    exact ⟨top, located, fun rate positive => Grid.shows_signedOffset F (peak_lt located) positive⟩

theorem peaks_fold_like_bins_half :
    peak #[0, 1, 2 * I, -2] = some 2 ∧
      (∀ offset, Nearest 4 2 offset ↔ offset = 2) ∧ wordOffset 2 4 = .ok 2 ∧
      (Grid.mk 4 48000 .zeroFirst).Shows ℚ 2 2 ∧
      ∃ fresh : Correlator ℂ Plan,
        Correlator.prepare (Planner.ofKernel Dft.transform) 2 = .ok fresh ∧
        ∃ lag, fresh.lag (Planner.ofKernel Dft.transform) #[1, 0] #[0, 1] 1 = lag ∧
          lag.result = .ok 1 ∧ ∃ top, peak lag.correlator.output = some top ∧
            (Grid.mk lag.correlator.output.size 48000 .zeroFirst).Shows ℚ top 1 := by
  obtain ⟨peaks, folds, lags⟩ :=
    peaks_fold_like_bins ℚ (Planner.ofKernel (C := ℂ) Dft.transform)
  obtain ⟨top, located, least⟩ :=
    (peaks #[0, 1, 2 * I, -2]).2 ⟨1, by simp, one_ne_zero⟩
  have first : IsLeast (loudest #[0, 1, 2 * I, -2]) 2 := by
    constructor
    · exact ⟨by decide, by norm_num⟩
    · rintro index ⟨inside, highest⟩
      have strong := highest (2 * I) (by simp)
      by_contra before
      obtain rfl | rfl : index = 0 ∨ index = 1 := by omega
      all_goals norm_num at strong
  obtain ⟨only, words, shown⟩ := folds 4 2 (by decide)
  -- The pulse repeats itself half a turn on.
  obtain ⟨fresh, prepared, ready⟩ := Correlator.exists_prepare
    (Planner.reliable_ofKernel Dft.transform) (by decide : 0 < 2)
  have echo : Echo #[1, 0] #[0, 1] 1 1 := by
    refine ⟨one_ne_zero, fun n inside => ?_⟩
    change n < 2 at inside
    obtain rfl | rfl : n = 0 ∨ n = 1 := by omega
    all_goals simp [entry]
  have heard : ∃ offset, (fresh.lag (Planner.ofKernel Dft.transform) #[1, 0] #[0, 1] 1).result =
      .ok offset ∧ Nearest 2 1 offset :=
    ready.lag_echo Planner.isFourier_ofKernel (Planner.reliable_ofKernel Dft.transform)
      ⟨0, by decide, by simp [entry]⟩ distinct_pulse (by rfl) echo
  obtain ⟨offset, measured, nearest⟩ := heard
  have half : offset = 1 := ((folds 2 1 (by decide)).1 offset).mp nearest
  obtain ⟨loudest, found, bins⟩ := lags fresh #[1, 0] #[0, 1] 1 _ rfl offset measured
  refine ⟨least.unique first ▸ located, only, words (by decide), shown 48000 (by decide), fresh,
    prepared, _, rfl, half ▸ measured, loudest, found, half ▸ bins 48000 (by decide)⟩

end Wideband
