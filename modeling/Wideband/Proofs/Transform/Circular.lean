import Wideband.Proofs.Transform.Convolving
import Wideband.Proofs.Transform.Correlation

namespace Wideband

open Finset Dft

noncomputable def convolution (a b : Array ℂ) (index : ℤ) : ℂ :=
  ∑ m ∈ range a.size, entry a m * entry b ((index - m) % a.size).toNat

/-- The product of two spectra, transformed back. -/
theorem bin_multiplied {a b : Array ℂ} (room : 0 < a.size) (same : b.size = a.size) (index : ℤ) :
    bin .backward (Array.zipWith (fun x y => x * y * (a.size : ℂ)⁻¹) (transform .forward a)
      (transform .forward b)) index = convolution a b index := by
  have whole : (a.size : ℂ) ≠ 0 := by exact_mod_cast Nat.ne_of_gt room
  rw [bin, Array.size_zipWith, size_transform, size_transform, same, min_self, convolution]
  calc
    ∑ k ∈ range a.size, turn a.size (sign .backward * index * k) *
        entry (Array.zipWith (fun x y => x * y * (a.size : ℂ)⁻¹) (transform .forward a)
          (transform .forward b)) k
      = (a.size : ℂ)⁻¹ * ∑ k ∈ range b.size, turn b.size (index * k) * (bin .forward b k *
          ∑ m ∈ range a.size, turn b.size (-m * k) * entry a m) := by
        rw [mul_sum, same]
        refine sum_congr rfl fun k member => ?_
        rw [mem_range] at member
        rw [entry_zipWith _ (by simpa using member) (by simpa [same] using member),
          entry_transform member, entry_transform (same ▸ member), bin.eq_def .forward a, sign, sign, one_mul]
        simp only [neg_mul, one_mul, mul_comm (k : ℤ)]
        ring
    _ = ∑ m ∈ range a.size, entry a m * entry b ((index - m) % a.size).toNat := by
        rw [sum_bins (same ▸ room) index (fun m => -m), same, inv_mul_cancel_left₀ whole]
        rfl

section Block

variable {a b : Array ℂ}

theorem size_block (same : b.size = a.size) :
    (Combination.convolution.block transform a b).size = a.size := by
  simp [Combination.block, same]

theorem entry_block (same : b.size = a.size) {index : ℕ} (inside : index < a.size) :
    entry (Combination.convolution.block transform a b) index = convolution a b index := by
  have combined : Combination.convolution.bin (Component.reciprocal a.size) =
      fun x y : ℂ => x * y * (a.size : ℂ)⁻¹ := by
    funext x y
    simp [Combination.bin]
  rw [Combination.block, combined, entry_transform (by simpa [same] using inside),
    bin_multiplied (Nat.zero_lt_of_lt inside) same]

theorem block_comm (same : b.size = a.size) :
    Combination.convolution.block transform b a = Combination.convolution.block transform a b := by
  have turned : (fun x y => Combination.convolution.bin (Component.reciprocal a.size) y x) =
      fun x y : ℂ => Combination.convolution.bin (Component.reciprocal a.size) x y := by
    funext x y
    simp only [Combination.bin, mul_comm]
  rw [Combination.block, Combination.block, same, Array.zipWith_comm, turned]

noncomputable def impulse (length place : ℕ) (factor : ℂ) : Array ℂ :=
  Array.ofFn fun index : Fin length => if index.val = place then factor else 0

theorem convolution_impulse {place : ℕ} (within : place < a.size) (factor : ℂ) {index : ℕ}
    (inside : index < a.size) :
    convolution (impulse a.size place factor) a ((index + place) % a.size : ℕ) =
      factor * entry a index := by
  have size : (impulse a.size place factor).size = a.size := by simp [impulse]
  have chosen : place ∈ range a.size := mem_range.mpr within
  rw [convolution, size, sum_eq_single_of_mem _ chosen]
  · have around : ((((index + place) % a.size : ℕ) - place : ℤ) % a.size).toNat = index := by
      have back : ((((index + place) % a.size : ℕ) : ℤ) - place) % a.size = index := by
        push_cast
        rw [Int.emod_sub_emod, add_sub_cancel_right]
        exact Int.emod_eq_of_lt (by omega) (by omega)
      rw [back, Int.toNat_natCast]
    rw [around, impulse, entry_ofFn _ within, if_pos rfl]
  · intro other member different
    rw [impulse, entry_ofFn _ (mem_range.mp member), if_neg different, zero_mul]

end Block

/-- A circular product of two blocks, and what it is when one of them is silent but for a sample. -/
structure Circular (a b product : Array ℂ) : Prop where
  same : b.size = a.size
  size : product.size = a.size
  sums {n : ℕ} (inside : n < a.size) :
    entry product n = ∑ m ∈ range a.size, entry a m * entry b ((n - m : ℤ) % a.size).toNat
  left {place : ℕ} (within : place < a.size) {factor : ℂ} (silent : a = impulse a.size place factor)
    {index : ℕ} (inside : index < a.size) :
    entry product ((index + place) % a.size) = factor * entry b index
  right {place : ℕ} (within : place < a.size) {factor : ℂ}
    (silent : b = impulse a.size place factor) {index : ℕ} (inside : index < a.size) :
    entry product ((index + place) % a.size) = factor * entry a index

theorem circular_block {a b : Array ℂ} (same : b.size = a.size) :
    Circular a b (Combination.convolution.block transform a b) where
  same := same
  size := size_block same
  sums inside := entry_block same inside
  left {place} within factor silent index inside := by
    rw [entry_block same (Nat.mod_lt _ (Nat.zero_lt_of_lt inside))]
    rw [← same] at silent within inside ⊢
    rw [silent, convolution_impulse within factor inside]
  right {place} within factor silent index inside := by
    rw [← block_comm same, ← same,
      entry_block same.symm (Nat.mod_lt _ (same ▸ Nat.zero_lt_of_lt inside)), same]
    rw [silent, convolution_impulse within factor inside]

section Convolves

variable {π : Type} {planner : Planner ℂ π} {a b : Buffer ℂ}

/-- A convolution of two buffers, by a convolver after any number of runs or by one prepared for it
alone. -/
inductive Convolves (planner : Planner ℂ π) (a b : Buffer ℂ) : ConvolvedOnce ℂ → Prop where
  | run {length : ℕ} {convolver : Convolver ℂ π} {left : Convolved ℂ π} (destination : Buffer ℂ)
      (serves : Convolver.Serves planner .convolution length convolver)
      (ran : convolver.runBuffers planner destination a b = .ok left) :
      Convolves planner a b
        ⟨left.result, .complex left.destination, .complex left.a, .complex left.b⟩
  | once (destination : Buffer ℂ) : Convolves planner a b (destination.convolve planner a b)

theorem Convolves.exists_run {after : ConvolvedOnce ℂ} (convolved : Convolves planner a b after)
    (done : after.result = .ok ()) :
    ∃ length convolver target left right, a = .complex left ∧ b = .complex right ∧
      Convolver.Serves planner .convolution length convolver ∧
      (convolver.run planner target left right).result = .ok () ∧
      after = ⟨.ok (), .complex (convolver.run planner target left right).destination,
        .complex (convolver.run planner target left right).a,
        .complex (convolver.run planner target left right).b⟩ := by
  cases convolved with
  | @run length convolver _ destination serves ran =>
      obtain ⟨target, left, right, rfl, rfl, rfl, rfl⟩ := Convolver.runBuffers_ok ran
      exact ⟨length, convolver, target, left, right, rfl, rfl, serves, done, by rw [← done]⟩
  | once destination =>
      obtain ⟨convolver, target, left, right, _, rfl, rfl, serves, succeeded, same⟩ :=
        Buffer.convolve_ok done
      exact ⟨target.size, convolver, target, left, right, rfl, rfl, serves, succeeded, same⟩

theorem Convolves.block {after : ConvolvedOnce ℂ} (exact : planner.IsFourier)
    (convolved : Convolves planner a b after) (done : after.result = .ok ()) :
    ∃ left right, a = .complex left ∧ b = .complex right ∧ right.size = left.size ∧
      after = ⟨.ok (), .complex (Combination.convolution.block transform left right), a, b⟩ := by
  obtain ⟨length, convolver, target, left, right, rfl, rfl, serves, succeeded, rfl⟩ :=
    convolved.exists_run done
  obtain ⟨_, first, second, _⟩ := serves.built.block exact.evaluates succeeded
  have ran := serves.built.run_ok exact.evaluates exact.keepsTime succeeded
  exact ⟨left, right, rfl, rfl, second.trans first.symm, by rw [ran]⟩

/-- Over exact samples every convolution that succeeds writes the circular product of its operands
and leaves them alone. The product does not depend on their order. Convolutions of blocks of one
length can be prepared and succeed with transforms that can be relied on. -/
theorem convolves_around (exact : planner.IsFourier) :
    (∀ a b after, Convolves planner a b after → after.result = .ok () →
      after.a = a ∧ after.b = b ∧
        (∃ left right product, a = .complex left ∧ b = .complex right ∧
          after.destination = .complex product ∧ Circular left right product) ∧
        ∀ turned, Convolves planner b a turned → turned.result = .ok () →
          turned.destination = after.destination) ∧
      (planner.Reliable → ∀ length > 0, ∀ destination a b : Buffer ℂ,
        (∀ buffer ∈ [destination, a, b], buffer.format = .complex ∧ buffer.size = length) →
          (∃ convolver,
            Convolver.prepare planner .convolution destination a b = .ok convolver) ∧
          (∀ convolver, Convolver.Serves planner .convolution length convolver →
            ∃ left, convolver.runBuffers planner destination a b = .ok left ∧
              left.result = .ok ()) ∧
          (destination.convolve planner a b).result = .ok ()) := by
  refine ⟨fun a b after convolved done => ?_, fun reliable length room destination a b shapes => ?_⟩
  · obtain ⟨left, right, rfl, rfl, same, rfl⟩ := convolved.block exact done
    refine ⟨rfl, rfl, ⟨left, right, _, rfl, rfl, rfl, circular_block same⟩,
      fun turned other also => ?_⟩
    obtain ⟨_, _, ⟨⟩, ⟨⟩, _, rfl⟩ := other.block exact also
    exact congrArg Buffer.complex (block_comm same)
  · have kept : planner.KeepsBins := exact.keepsBins
    exact ⟨Convolver.exists_fit reliable .convolution room shapes,
      fun convolver serves => serves.succeeds reliable kept shapes,
      Buffer.convolve_succeeds reliable kept room shapes⟩

end Convolves

theorem convolves_around_impulse : ∃ product : Array ℂ,
    (Buffer.complex #[0, 0, 0]).convolve (.ofKernel transform) (.complex #[1, 2, 3])
        (.complex (impulse 3 1 2)) =
      ⟨.ok (), .complex product, .complex #[1, 2, 3], .complex (impulse 3 1 2)⟩ ∧
    product.size = 3 ∧ entry product 0 = 6 ∧ entry product 1 = 2 ∧ entry product 2 = 4 := by
  obtain ⟨computes, succeeds⟩ := convolves_around Planner.isFourier_ofKernel
  obtain ⟨_, _, done⟩ := succeeds (Planner.reliable_ofKernel transform) 3 (by decide)
    (.complex #[0, 0, 0]) (.complex #[1, 2, 3]) (.complex (impulse 3 1 2))
    (by simp [Buffer.format, Buffer.size, impulse])
  have once := computes _ _ _ (.once (.complex #[0, 0, 0])) done
  generalize (Buffer.complex #[0, 0, 0]).convolve (.ofKernel transform) (.complex #[1, 2, 3])
    (.complex (impulse 3 1 2)) = after at done once ⊢
  obtain ⟨result, destination, a, b⟩ := after
  obtain ⟨rfl, rfl, ⟨_, _, product, ⟨⟩, ⟨⟩, rfl, circular⟩, _⟩ := once
  obtain rfl : result = .ok () := done
  have turned {index : ℕ} (inside : index < 3) :
      entry product ((index + 1) % 3) = 2 * entry #[1, 2, 3] index :=
    circular.right (by decide) rfl inside
  refine ⟨product, rfl, circular.size, (turned (show 2 < 3 by decide)).trans ?_,
    (turned (show 0 < 3 by decide)).trans ?_, (turned (show 1 < 3 by decide)).trans ?_⟩
  all_goals norm_num [entry]

end Wideband
