import Wideband.Proofs.Spectrum.Ordered

namespace Wideband.Grid

variable {grid : Grid} {bin : ℕ} {index : ℤ}

/-- What is stored at a bin is off by whole turns around the grid at most. -/
theorem signedIndex_turns (grid : Grid) (bin : ℕ) :
    ∃ turns : ℤ, (bin : ℤ) = grid.signedIndex bin + grid.origin + turns * grid.size := by
  unfold signedIndex
  dsimp only
  split
  · exact ⟨1, by ring⟩
  split
  · exact ⟨-1, by ring⟩
  · exact ⟨0, by ring⟩

theorem place_turns (room : 0 < grid.size) (index : ℤ) :
    ∃ turns : ℤ, (grid.place index : ℤ) = index + grid.origin + turns * grid.size := by
  have above := Int.emod_nonneg (index + grid.origin) (by omega : (grid.size : ℤ) ≠ 0)
  refine ⟨-((index + grid.origin) / grid.size), ?_⟩
  rw [place, Int.toNat_of_nonneg above, Int.emod_def]
  ring

theorem signedIndex_within (inside : bin < grid.size) :
    -(grid.size : ℤ) < 2 * grid.signedIndex bin ∧ 2 * grid.signedIndex bin ≤ grid.size := by
  have middle : grid.origin ≤ grid.size / 2 := by
    unfold origin
    cases grid.order <;> simp
  unfold signedIndex
  dsimp only
  split
  · omega
  split <;> omega

theorem place_signedIndex (inside : bin < grid.size) : grid.place (grid.signedIndex bin) = bin := by
  obtain ⟨turns, split⟩ := grid.signedIndex_turns bin
  have target : grid.signedIndex bin + grid.origin = bin + grid.size * -turns := by
    rw [split]
    ring
  rw [place, target, Int.add_mul_emod_self_left, Int.emod_eq_of_lt (by omega) (by omega),
    Int.toNat_natCast]

theorem signedIndex_place_turns (room : 0 < grid.size) (index : ℤ) :
    ∃ turns : ℤ, grid.signedIndex (grid.place index) = index + turns * grid.size := by
  obtain ⟨first, placed⟩ := place_turns room index
  obtain ⟨second, found⟩ := grid.signedIndex_turns (grid.place index)
  refine ⟨first - second, ?_⟩
  linear_combination placed - found

theorem eq_of_turns {size : ℕ} {next turns : ℤ} (split : next = index + turns * size)
    (near : |next - index| < size) : next = index :=
  sub_eq_zero.mp (Int.eq_zero_of_abs_lt_dvd ⟨turns, by rw [split]; ring⟩ near)

theorem signedIndex_place (room : 0 < grid.size) (above : -(grid.size : ℤ) < 2 * index)
    (atMost : 2 * index ≤ grid.size) : grid.signedIndex (grid.place index) = index := by
  obtain ⟨turns, split⟩ := signedIndex_place_turns room index
  obtain ⟨low, high⟩ := signedIndex_within (place_lt room index)
  refine eq_of_turns split ?_
  rw [abs_lt]
  constructor <;> omega

variable {F : Type} [Field F] [LinearOrder F] [FloorRing F]

theorem size_mul_bandwidth (room : 0 < grid.size) :
    (grid.size : F) * (grid.rate / grid.size) = grid.rate := by
  have width : (grid.size : F) ≠ 0 := by exact_mod_cast room.ne'
  field_simp

attribute [local instance] Frequency.ordered

attribute [local instance (low)]
  Frequency.toAdd Frequency.toSub Frequency.toMul Frequency.toDiv Frequency.toNeg

theorem frequencyOf_inside (inside : bin < grid.size) :
    grid.frequencyOf bin = .ok (grid.signedIndex bin * (grid.rate / grid.size) : F) := by
  rw [frequencyOf, if_pos inside, bandwidth_ordered]
  rfl

variable {frequency : F}

theorem exists_binOf_iff (room : 0 < grid.size) :
    (∃ bin, grid.binOf frequency = .ok bin) ↔
      -(grid.rate / 2 : F) < frequency ∧ frequency ≤ grid.rate / 2 := by
  constructor
  · rintro ⟨bin, held⟩
    exact (check_ok_iff.mp (binOf_ok_iff.mp held).1).2
  · intro inside
    exact ⟨_, binOf_ok_iff.mpr ⟨check_ok_iff.mpr ⟨room, inside⟩, rfl⟩⟩

variable [IsStrictOrderedRing F]

theorem bandwidth_pos (room : 0 < grid.size) (positive : 0 < grid.rate) :
    (0 : F) < grid.rate / grid.size := by
  have width : (0 : F) < grid.size := by exact_mod_cast room
  have speed : (0 : F) < grid.rate := by exact_mod_cast positive
  exact div_pos speed width

theorem rate_pos_of_check (accepted : grid.check frequency = .ok ()) : 0 < grid.rate := by
  obtain ⟨_, above, atMost⟩ := check_ok_iff.mp accepted
  have speed : (0 : F) < grid.rate := by linarith
  exact_mod_cast speed

theorem bins_of_check (accepted : grid.check frequency = .ok ()) :
    -(grid.size / 2 : F) < frequency / (grid.rate / grid.size) ∧
      frequency / (grid.rate / grid.size) ≤ (grid.size / 2 : F) := by
  obtain ⟨room, above, atMost⟩ := check_ok_iff.mp accepted
  have width : (0 : F) < grid.rate / grid.size := bandwidth_pos room (rate_pos_of_check accepted)
  have whole : (grid.size : F) * (grid.rate / grid.size) = grid.rate := size_mul_bandwidth room
  rw [lt_div_iff₀ width, div_le_iff₀ width]
  constructor <;> linarith

theorem indexOf_within (accepted : grid.check frequency = .ok ()) :
    -(grid.size : ℤ) ≤ 2 * grid.indexOf frequency ∧ 2 * grid.indexOf frequency ≤ grid.size := by
  obtain ⟨above, atMost⟩ := bins_of_check accepted
  exact (grid.indexOf_settles frequency).within above atMost

theorem indexOf_steps (room : 0 < grid.size) (positive : 0 < grid.rate) (index : ℤ) :
    grid.indexOf (index * (grid.rate / grid.size) : F) = index := by
  have width : (grid.rate / grid.size : F) ≠ 0 := (bandwidth_pos room positive).ne'
  have settled := grid.indexOf_settles (index * (grid.rate / grid.size) : F)
  rw [mul_div_cancel_right₀ _ width] at settled
  exact settled.eq_of_cast

theorem check_steps (room : 0 < grid.size) (positive : 0 < grid.rate)
    (above : -(grid.size : ℤ) < 2 * index) (atMost : 2 * index ≤ grid.size) :
    grid.check (index * (grid.rate / grid.size) : F) = .ok () := by
  have width : (0 : F) < grid.rate / grid.size := bandwidth_pos room positive
  have whole : (grid.size : F) * (grid.rate / grid.size) = grid.rate := size_mul_bandwidth room
  have low : -(grid.size : F) < 2 * index := by exact_mod_cast above
  have high : 2 * (index : F) ≤ grid.size := by exact_mod_cast atMost
  have below := mul_lt_mul_of_pos_right low width
  have upper := mul_le_mul_of_nonneg_right high width.le
  exact check_ok_iff.mpr ⟨room, by linarith, by linarith⟩

theorem binOf_frequencyOf (positive : 0 < grid.rate) (inside : bin < grid.size) :
    ∃ frequency : F, grid.frequencyOf bin = .ok frequency ∧ grid.binOf frequency = .ok bin := by
  have room := Nat.zero_lt_of_lt inside
  obtain ⟨above, atMost⟩ := signedIndex_within inside
  refine ⟨_, frequencyOf_inside inside,
    binOf_ok_iff.mpr ⟨check_steps room positive above atMost, ?_⟩⟩
  rw [indexOf_steps room positive, place_signedIndex inside]

theorem frequencyOf_place_turns (room : 0 < grid.size) (index : ℤ) :
    ∃ turns : ℤ, grid.frequencyOf (grid.place index) =
      .ok (index * (grid.rate / grid.size) + turns * grid.rate : F) := by
  obtain ⟨turns, split⟩ := signedIndex_place_turns room index
  have whole : (grid.size : F) * (grid.rate / grid.size) = grid.rate := size_mul_bandwidth room
  refine ⟨turns, ?_⟩
  rw [frequencyOf_inside (place_lt room index), split]
  congr 1
  push_cast
  linear_combination (turns : F) * whole

/-- Every bin holds the frequency it shows. The frequencies that have a bin are those above minus
half the rate and up to half the rate, and the bin of one shows the multiple of the bandwidth on
which it settles, up to multiples of the rate. -/
theorem maps_back (room : 0 < grid.size) (positive : 0 < grid.rate) :
    (∀ bin < grid.size, ∃ frequency : F, grid.frequencyOf bin = .ok frequency ∧
      -(grid.rate / 2 : F) < frequency ∧ frequency ≤ grid.rate / 2 ∧
      grid.binOf frequency = .ok bin) ∧
    ∀ frequency : F,
      ((∃ bin, grid.binOf frequency = .ok bin) ↔
        -(grid.rate / 2 : F) < frequency ∧ frequency ≤ grid.rate / 2) ∧
      ∀ bin, grid.binOf frequency = .ok bin → bin < grid.size ∧
        ∃ index turns : ℤ, Settles (frequency / (grid.rate / grid.size)) index ∧
          grid.frequencyOf bin =
            .ok (index * (grid.rate / grid.size) + turns * grid.rate : F) := by
  refine ⟨?_, fun frequency => ⟨exists_binOf_iff room, ?_⟩⟩
  · intro bin inside
    obtain ⟨frequency, shown, held⟩ := binOf_frequencyOf (F := F) positive inside
    obtain ⟨above, atMost⟩ := (exists_binOf_iff room).mp ⟨bin, held⟩
    exact ⟨frequency, shown, above, atMost, held⟩
  · intro bin held
    obtain ⟨_, rfl⟩ := binOf_ok_iff.mp held
    obtain ⟨turns, shown⟩ := frequencyOf_place_turns (F := F) room (grid.indexOf frequency)
    exact ⟨place_lt room _, _, turns, grid.indexOf_settles frequency, shown⟩

/-- A frequency between two of five bins belongs to the one that is nearer to 0 Hz. -/
theorem maps_back_between : 0 < 5 ∧ 0 < 48000 ∧
    ∃ (bin : ℕ) (turns : ℤ), (Grid.mk 5 48000 .negativeFirst).binOf (-12000 : ℚ) = .ok bin ∧
      (Grid.mk 5 48000 .negativeFirst).frequencyOf bin = .ok (-9600 + turns * 48000 : ℚ) := by
  have room : 0 < (Grid.mk 5 48000 .negativeFirst).size := by decide
  obtain ⟨_, maps⟩ := maps_back (F := ℚ) room (by decide)
  obtain ⟨accepted, answers⟩ := maps (-12000)
  obtain ⟨bin, held⟩ := accepted.mpr (by norm_num)
  obtain ⟨_, index, turns, settled, shown⟩ := answers bin held
  obtain ⟨_, low, high⟩ := settled.of_nonpos (by norm_num)
  norm_num at low high
  have truncated : index = -1 := by
    have least : ((-2 : ℤ) : ℚ) < index := by push_cast; linarith
    have most : (index : ℚ) < (0 : ℤ) := by push_cast; linarith
    have := Int.cast_lt.mp least
    have := Int.cast_lt.mp most
    omega
  refine ⟨by decide, by decide, bin, turns, held, ?_⟩
  rw [shown, truncated]
  norm_num

end Wideband.Grid
