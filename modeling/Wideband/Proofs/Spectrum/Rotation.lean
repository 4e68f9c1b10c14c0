import Mathlib
import Wideband.Spectrum.Basic

namespace Wideband.Spectrum

variable {C R : Type} {bins : Array C} {count index : ℕ}

theorem getElem?_rotateLeft (fits : count ≤ bins.size) (inside : index < bins.size) :
    (rotateLeft bins count)[index]? = bins[(index + count) % bins.size]? := by
  have later : (bins.extract count bins.size).size = bins.size - count := by simp
  unfold rotateLeft
  by_cases straight : index < bins.size - count
  · have target : (index + count) % bins.size = index + count := Nat.mod_eq_of_lt (by omega)
    rw [Array.getElem?_append_left (by omega), target, Array.getElem?_extract, if_pos (by omega),
      Nat.add_comm]
  · have target : (index + count) % bins.size = index + count - bins.size := by
      rw [Nat.mod_eq_sub_mod (by omega), Nat.mod_eq_of_lt (by omega)]
    have offset : index - (bins.size - count) = index + count - bins.size := by omega
    rw [Array.getElem?_append_right (by omega), later, target, Array.getElem?_extract,
      if_pos (by omega), Nat.zero_add, offset]

/-- The bin at an index comes from `count` places before it. -/
theorem getElem?_rotateRight (fits : count ≤ bins.size) (inside : index < bins.size) :
    (rotateRight bins count)[index]? = bins[(((index : ℤ) - count) % bins.size).toNat]? := by
  have whole : (index + (bins.size - count)) % bins.size =
      (((index : ℤ) - count) % bins.size).toNat := by
    have moved : ((index + (bins.size - count) : ℕ) : ℤ) = index - count + bins.size := by omega
    have same : ((index + (bins.size - count) : ℕ) : ℤ) % bins.size =
        ((index : ℤ) - count) % bins.size := by
      rw [moved, Int.add_emod_right]
    rw [← same]
    omega
  rw [rotateRight, getElem?_rotateLeft (by omega) inside, whole]

end Wideband.Spectrum
