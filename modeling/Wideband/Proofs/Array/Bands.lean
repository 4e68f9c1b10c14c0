import Wideband.Proofs.Array.Tuning

namespace Wideband

/-!
The bands that receivers of a tiled array hear, in exact arithmetic. Counted in rates from the centre,
every frequency lies in one slot, and the receivers take the slots around the centre, one each. So
their bands lie side by side: around the centre for an even number of receivers, but from the centre
on for a single one (`TiledArray.bands_adjoin`).
-/

variable {F : Type} [Field F] [LinearOrder F] [FloorRing F]

attribute [local instance] Frequency.ordered

-- What a frequency computes is what the field computes, so its own operations come last here.
attribute [local instance (low)]
  Frequency.toAdd Frequency.toSub Frequency.toMul Frequency.toDiv Frequency.toNeg

def heard (rate : ℕ) (center : F) : Set F :=
  Set.Ico (center - rate / (2 : ℤ)) (center + rate / (2 : ℤ))

/-- How many rates above the centre the band of a receiver begins. -/
def slot (count index : ℕ) : ℤ :=
  if count ≤ 2 * index then index - count else index

theorem slot_within {count index : ℕ} (inside : index < count) :
    -(count / 2 : ℕ) ≤ slot count index ∧ slot count index < (count - count / 2 : ℕ) := by
  unfold slot
  split <;> omega

theorem slot_injective {count index other : ℕ} (inside : index < count) (too : other < count)
    (same : slot count index = slot count other) : index = other := by
  unfold slot at same
  split at same <;> split at same <;> omega

theorem exists_slot {count : ℕ} {place : ℤ} (low : -(count / 2 : ℕ) ≤ place)
    (high : place < (count - count / 2 : ℕ)) : ∃ index < count, slot count index = place := by
  by_cases below : place < 0
  · refine ⟨(place + count).toNat, by omega, ?_⟩
    rw [slot, if_pos (by omega)]
    omega
  · refine ⟨place.toNat, by omega, ?_⟩
    rw [slot, if_neg (by omega)]
    omega

theorem tiling_slots (center : F) (rate count : ℕ) :
    tiling center rate count =
      (List.range count).map fun index : ℕ => center + (slot count index + 1 / 2) * rate := by
  refine List.map_congr_left fun index _ => ?_
  have half : (Frequency.half : F) = 1 / 2 := by
    change ((1 : ℤ) : F) / ((2 : ℤ) : F) = _
    norm_num
  rw [half, slot]
  split
  · change center + ((((index : ℤ) : F) + 1 / 2) * ((rate : ℤ) : F) -
      ((count : ℤ) : F) * ((rate : ℤ) : F)) = _
    push_cast
    ring
  · change center + (((index : ℤ) : F) + 1 / 2) * ((rate : ℤ) : F) = _
    push_cast
    ring

variable [IsStrictOrderedRing F] {rate : ℕ}

theorem mem_heard_iff (positive : 0 < rate) {center frequency : F} {place : ℤ} :
    frequency ∈ heard rate (center + (place + 1 / 2) * rate) ↔
      ⌊(frequency - center) / rate⌋ = place := by
  have width : (0 : F) < rate := Nat.cast_pos.mpr positive
  rw [Int.floor_eq_iff, le_div_iff₀ width, div_lt_iff₀ width, heard, Set.mem_Ico, Int.cast_ofNat]
  constructor
  · rintro ⟨low, high⟩
    constructor <;> linarith
  · rintro ⟨low, high⟩
    constructor <;> linarith

theorem tiling_disjoint (positive : 0 < rate) (center : F) (count : ℕ) :
    (tiling center rate count).Pairwise fun low high =>
      Disjoint (heard rate low) (heard rate high) := by
  rw [tiling_slots, List.pairwise_map]
  refine List.nodup_range.imp_of_mem fun {index other} inside too different => ?_
  rw [List.mem_range] at inside too
  refine Set.disjoint_left.mpr fun frequency low high => different ?_
  rw [mem_heard_iff positive] at low high
  exact slot_injective inside too (low.symm.trans high)

theorem tiling_covers (positive : 0 < rate) (center : F) (count : ℕ) :
    ⋃ middle ∈ tiling center rate count, heard rate middle =
      Set.Ico (center - (count / 2 : ℕ) * rate) (center + (count - count / 2 : ℕ) * rate) := by
  have width : (0 : F) < rate := Nat.cast_pos.mpr positive
  ext frequency
  have slots : frequency ∈ ⋃ middle ∈ tiling center rate count, heard rate middle ↔
      ∃ index < count, ⌊(frequency - center) / rate⌋ = slot count index := by
    simp only [tiling_slots, Set.mem_iUnion₂, List.mem_map, List.mem_range, exists_prop]
    constructor
    · rintro ⟨_, ⟨index, inside, rfl⟩, hears⟩
      exact ⟨index, inside, (mem_heard_iff positive).mp hears⟩
    · rintro ⟨index, inside, same⟩
      exact ⟨_, ⟨index, inside, rfl⟩, (mem_heard_iff positive).mpr same⟩
  have edges : frequency ∈ Set.Ico (center - (count / 2 : ℕ) * rate)
      (center + (count - count / 2 : ℕ) * rate) ↔
      -(count / 2 : ℕ) ≤ ⌊(frequency - center) / rate⌋ ∧
        ⌊(frequency - center) / rate⌋ < (count - count / 2 : ℕ) := by
    rw [Int.le_floor, Int.floor_lt, le_div_iff₀ width, div_lt_iff₀ width, Set.mem_Ico,
      Int.cast_neg, Int.cast_natCast, Int.cast_natCast]
    constructor
    · rintro ⟨low, high⟩
      constructor <;> linarith
    · rintro ⟨low, high⟩
      constructor <;> linarith
  rw [slots, edges]
  constructor
  · rintro ⟨index, inside, same⟩
    rw [same]
    exact slot_within inside
  · rintro ⟨low, high⟩
    obtain ⟨index, inside, same⟩ := exists_slot low high
    exact ⟨index, inside, same.symm⟩

namespace TiledArray

variable {τ ρ C π : Type} {planner : Planner C π} {receivers : List τ} {array : TiledArray τ ρ C π F}

/-- The bands of a tiled array lie side by side. An even number of them lie around the centre; that
of a single receiver begins there. -/
theorem bands_adjoin (accepted : ofReceivers planner receivers = .ok array) (positive : 0 < rate)
    (center : F) :
    (tiling center rate array.size).Pairwise
        (fun low high => Disjoint (heard rate low) (heard rate high)) ∧
      (Even array.size → ⋃ middle ∈ tiling center rate array.size, heard rate middle =
        Set.Ico (center - array.size * rate / 2) (center + array.size * rate / 2)) ∧
      (¬Even array.size → array.size = 1 ∧
        ⋃ middle ∈ tiling center rate array.size, heard rate middle =
          Set.Ico center (center + rate)) := by
  obtain ⟨rfl, _, number⟩ := ofReceivers_ok accepted
  change receivers.length = 1 ∨ Even receivers.length at number
  simp only [size]
  refine ⟨tiling_disjoint positive center _, fun even => ?_, fun odd => ?_⟩
  · obtain ⟨half, whole⟩ := even
    have lower : (half + half) / 2 = half := by omega
    have upper : half + half - half = half := by omega
    rw [tiling_covers positive, whole, lower, upper]
    congr 1 <;> push_cast <;> ring
  · have single := number.resolve_right odd
    refine ⟨single, ?_⟩
    rw [tiling_covers positive, single]
    norm_num

theorem bands_adjoin_pair :
    ∃ array : TiledArray ℕ ℕ Complex32 Plan ℚ, ofReceivers .fourier [7, 8] = .ok array ∧
      0 < 10 ∧ Even array.size ∧
      ⋃ middle ∈ tiling (100 : ℚ) 10 array.size, heard 10 middle = Set.Ico 90 110 := by
  obtain ⟨array, accepted⟩ : ∃ array : TiledArray ℕ ℕ Complex32 Plan ℚ,
      ofReceivers .fourier [7, 8] = .ok array := ⟨_, rfl⟩
  have pair : array.size = 2 := by
    obtain ⟨rfl, _⟩ := ofReceivers_ok accepted
    rfl
  have even : Even array.size := pair ▸ even_two
  obtain ⟨_, covered, _⟩ := bands_adjoin accepted (by decide : 0 < 10) (100 : ℚ)
  refine ⟨array, accepted, by decide, even, ?_⟩
  rw [covered even, pair]
  norm_num

theorem band_aside :
    ∃ array : TiledArray ℕ ℕ Complex32 Plan ℚ, ofReceivers .fourier [7] = .ok array ∧
      tiling (0 : ℚ) 1000 array.size = [500] ∧
      ⋃ middle ∈ tiling (0 : ℚ) 1000 array.size, heard 1000 middle ≠
        Set.Ico ((0 : ℚ) - array.size * 1000 / 2) (0 + array.size * 1000 / 2) := by
  have listed : tiling (0 : ℚ) 1000 1 = [500] := by
    norm_num [tiling_slots, slot]
  refine ⟨⟨⟨[7], .fourier, .standard, false⟩, none, .standard, []⟩, rfl, listed, fun same => ?_⟩
  change ⋃ middle ∈ tiling (0 : ℚ) 1000 1, heard 1000 middle =
    Set.Ico ((0 : ℚ) - (1 : ℕ) * 1000 / 2) (0 + (1 : ℕ) * 1000 / 2) at same
  have inside : (-1 : ℚ) ∈ Set.Ico ((0 : ℚ) - (1 : ℕ) * 1000 / 2) (0 + (1 : ℕ) * 1000 / 2) := by
    norm_num
  rw [← same, listed] at inside
  norm_num [heard] at inside

end TiledArray

end Wideband
