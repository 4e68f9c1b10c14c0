import Mathlib
import Wideband.Transform.Planner

namespace Wideband

open Finset Complex

/-!
The discrete Fourier transform of a block of exact complex samples, unnormalised in both
directions. The two facts that everything else rests on are that the points of a whole turn cancel
out (`sum_turn`), and that a transform there and back multiplies every sample by the size of the
block (`Dft.bin_transform`).
-/

/-- The point of the unit circle that lies `index` of `size` equal parts of a turn from one. -/
noncomputable def turn (size : ℕ) (index : ℤ) : ℂ :=
  exp (2 * Real.pi * I * index / size)

section Turn

variable {size : ℕ}

theorem turn_add (size : ℕ) (a b : ℤ) : turn size (a + b) = turn size a * turn size b := by
  rw [turn, turn, turn, ← exp_add]
  congr 1
  push_cast
  ring

theorem turn_mul_natCast (size : ℕ) (index : ℤ) (count : ℕ) :
    turn size (index * count) = turn size index ^ count := by
  rw [turn, turn, ← exp_nat_mul]
  congr 1
  push_cast
  ring

@[simp] theorem conj_turn (size : ℕ) (index : ℤ) :
    starRingEnd ℂ (turn size index) = turn size (-index) := by
  rw [turn, turn, ← exp_conj]
  congr 1
  simp [map_ofNat, neg_div]

theorem turn_eq_one_iff (room : 0 < size) (index : ℤ) :
    turn size index = 1 ↔ (size : ℤ) ∣ index := by
  have whole : (size : ℂ) ≠ 0 := Nat.cast_ne_zero.mpr (Nat.ne_of_gt room)
  have circle : (2 * Real.pi * I : ℂ) ≠ 0 := two_pi_I_ne_zero
  rw [turn, exp_eq_one_iff]
  constructor
  · rintro ⟨turns, equal⟩
    refine ⟨turns, ?_⟩
    rw [div_eq_iff whole] at equal
    have product : (2 * Real.pi * I : ℂ) * index = 2 * Real.pi * I * (size * turns : ℤ) := by
      push_cast
      linear_combination equal
    exact_mod_cast mul_left_cancel₀ circle product
  · rintro ⟨turns, rfl⟩
    refine ⟨turns, ?_⟩
    rw [div_eq_iff whole]
    push_cast
    ring

/-- Equally spaced points around whole turns cancel out, unless they are all at one. -/
theorem sum_turn (room : 0 < size) (index : ℤ) :
    ∑ n ∈ range size, turn size (index * n) = if (size : ℤ) ∣ index then (size : ℂ) else 0 := by
  simp only [turn_mul_natCast]
  split
  · rename_i whole
    rw [(turn_eq_one_iff room index).mpr whole]
    simp
  · rename_i part
    have different : turn size index ≠ 1 := fun same => part ((turn_eq_one_iff room _).mp same)
    have closed : turn size index ^ size = 1 := by
      rw [← turn_mul_natCast]
      exact (turn_eq_one_iff room _).mpr (Dvd.intro_left _ rfl)
    rw [geom_sum_eq different, closed, sub_self, zero_div]

end Turn

theorem sum_congruent {size : ℕ} (room : 0 < size) (terms : ℕ → ℂ) (index : ℤ) :
    (∑ n ∈ range size, terms n * if (size : ℤ) ∣ index - n then (size : ℂ) else 0) =
      size * terms (index % size).toNat := by
  have whole : (size : ℤ) ≠ 0 := by exact_mod_cast Nat.ne_of_gt room
  have above := Int.emod_nonneg index whole
  have below := Int.emod_lt_of_pos index (by exact_mod_cast room : (0 : ℤ) < size)
  have chosen : (index % size).toNat ∈ range size := by
    rw [mem_range]
    omega
  rw [sum_eq_single_of_mem _ chosen]
  · have congruent : (size : ℤ) ∣ index - (index % size).toNat := by
      rw [Int.toNat_of_nonneg above]
      exact Int.dvd_self_sub_emod
    rw [if_pos congruent, mul_comm]
  · intro other member different
    rw [mem_range] at member
    have incongruent : ¬ (size : ℤ) ∣ index - other := by
      intro congruent
      have equal : index % size = other % size :=
        Int.emod_eq_emod_iff_emod_sub_eq_zero.mpr (Int.emod_eq_zero_of_dvd congruent)
      rw [Int.emod_eq_of_lt (Int.natCast_nonneg other) (by exact_mod_cast member)] at equal
      omega
    rw [if_neg incongruent, mul_zero]

def entry (block : Array ℂ) (index : ℕ) : ℂ :=
  block[index]?.getD 0

@[simp] theorem entry_ofFn {size : ℕ} (samples : Fin size → ℂ) {index : ℕ} (inside : index < size) :
    entry (Array.ofFn samples) index = samples ⟨index, inside⟩ := by
  simp [entry, inside]

theorem entry_of_lt {block : Array ℂ} {index : ℕ} (inside : index < block.size) :
    entry block index = block[index] := by
  simp [entry, inside]

theorem entry_map (block : Array ℂ) (factor : ℂ) (index : ℕ) :
    entry (block.map (· * factor)) index = entry block index * factor := by
  cases found : block[index]? <;> simp [entry, found]

theorem entry_append_left {front rest : Array ℂ} {index : ℕ} (inside : index < front.size) :
    entry (front ++ rest) index = entry front index := by
  rw [entry, entry, Array.getElem?_append_left inside]

theorem entry_append_right (front rest : Array ℂ) (index : ℕ) :
    entry (front ++ rest) (front.size + index) = entry rest index := by
  rw [entry, entry, Array.getElem?_append_right (Nat.le_add_right _ _), Nat.add_sub_cancel_left]

namespace Dft

def sign : Direction → ℤ
  | .forward => -1
  | .backward => 1

/-- One bin of the transform of a block. Bins are counted around the block. -/
noncomputable def bin (direction : Direction) (block : Array ℂ) (index : ℤ) : ℂ :=
  ∑ n ∈ range block.size, turn block.size (sign direction * index * n) * entry block n

noncomputable def transform : Kernel ℂ := fun direction block =>
  Array.ofFn fun index : Fin block.size => bin direction block (index.val : ℤ)

variable {block : Array ℂ} {direction : Direction}

@[simp] theorem size_transform (direction : Direction) (block : Array ℂ) :
    (transform direction block).size = block.size := by
  simp [transform]

theorem entry_transform {index : ℕ} (inside : index < block.size) :
    entry (transform direction block) index = bin direction block index := by
  simp [transform, inside]

theorem sum_bins (room : 0 < block.size) (index : ℤ) {count : ℕ} (places : ℕ → ℤ)
    (weights : ℕ → ℂ) :
    ∑ k ∈ range block.size, turn block.size (index * k) * (bin .forward block k *
        ∑ n ∈ range count, turn block.size (places n * k) * weights n) =
      block.size * ∑ n ∈ range count,
        weights n * entry block ((index + places n) % block.size).toNat := by
  calc
    ∑ k ∈ range block.size, turn block.size (index * k) * (bin .forward block k *
        ∑ n ∈ range count, turn block.size (places n * k) * weights n)
      = ∑ k ∈ range block.size, ∑ n ∈ range count, ∑ m ∈ range block.size,
          weights n * (entry block m * turn block.size ((index + places n - m) * k)) := by
        refine sum_congr rfl fun k _ => ?_
        rw [bin, sum_mul_sum, mul_sum, sum_comm]
        refine sum_congr rfl fun m _ => ?_
        rw [mul_sum]
        refine sum_congr rfl fun n _ => ?_
        have angles : (index + places n - m) * k =
            index * k + (sign .forward * k * m + places n * k) := by
          simp only [sign]
          ring
        rw [angles, turn_add, turn_add]
        ring
    _ = ∑ n ∈ range count, weights n * ∑ m ∈ range block.size,
          entry block m * if (block.size : ℤ) ∣ index + places n - m then (block.size : ℂ) else 0 := by
        rw [sum_comm]
        refine sum_congr rfl fun n _ => ?_
        rw [sum_comm, mul_sum]
        refine sum_congr rfl fun m _ => ?_
        rw [← sum_turn room, mul_sum, mul_sum]
    _ = block.size * ∑ n ∈ range count,
          weights n * entry block ((index + places n) % block.size).toNat := by
        rw [mul_sum]
        refine sum_congr rfl fun n _ => ?_
        rw [sum_congruent room]
        ring

/-- Transforming there and back gives every sample, times the size of the block. -/
theorem bin_transform (room : 0 < block.size) {there back : Direction} (opposite : back ≠ there)
    (index : ℤ) :
    bin back (transform there block) index =
      block.size * entry block (index % block.size).toNat := by
  have signs : sign there = -sign back := by
    cases there <;> cases back <;> simp_all [sign]
  have unit : sign back = 1 ∨ sign back = -1 := by
    cases back <;> simp [sign]
  rw [← sum_congruent room (entry block) index, bin, size_transform]
  calc
    ∑ n ∈ range block.size,
        turn block.size (sign back * index * n) * entry (transform there block) n
      = ∑ n ∈ range block.size, ∑ m ∈ range block.size,
          entry block m * turn block.size (sign back * (index - m) * n) := by
        refine sum_congr rfl fun n member => ?_
        rw [entry_transform (mem_range.mp member), bin, mul_sum]
        refine sum_congr rfl fun m _ => ?_
        have angles : sign back * (index - m) * n =
            sign back * index * n + sign there * n * m := by
          rw [signs]
          ring
        rw [angles, turn_add]
        ring
    _ = ∑ m ∈ range block.size,
          entry block m * if (block.size : ℤ) ∣ index - m then (block.size : ℂ) else 0 := by
        rw [sum_comm]
        refine sum_congr rfl fun m _ => ?_
        rw [← mul_sum, sum_turn room]
        rcases unit with plus | minus
        · rw [plus, one_mul]
        · simp only [minus, neg_one_mul, dvd_neg]

end Dft

end Wideband
