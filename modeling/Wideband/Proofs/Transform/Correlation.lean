import Wideband.Proofs.Sample.Exact
import Wideband.Proofs.Transform.Convolving
import Wideband.Transform.Correlator

namespace Wideband

open Finset Dft

/-- How well the first block, read from `lag` on and around, matches the second. -/
noncomputable def correlation (a b : Array ℂ) (lag : ℕ) : ℂ :=
  ∑ n ∈ range a.size, entry a ((n + lag) % a.size) * starRingEnd ℂ (entry b n)

theorem entry_zipWith {a b : Array ℂ} (combine : ℂ → ℂ → ℂ) {index : ℕ} (left : index < a.size)
    (right : index < b.size) :
    entry (Array.zipWith combine a b) index = combine (entry a index) (entry b index) := by
  simp [entry, left, right]

theorem conj_bin (block : Array ℂ) (index : ℤ) :
    starRingEnd ℂ (bin .forward block index) =
      ∑ n ∈ range block.size, turn block.size (index * n) * starRingEnd ℂ (entry block n) := by
  rw [bin, map_sum]
  refine sum_congr rfl fun n _ => ?_
  have angle : -(sign .forward * index * n) = index * n := by simp [sign]
  rw [map_mul, conj_turn, angle]

/-- The product of a spectrum with a conjugated one, transformed back. -/
theorem bin_product {a b : Array ℂ} (room : 0 < a.size) (same : b.size = a.size) (lag : ℕ) :
    bin .backward
      (Array.zipWith (fun x y => x * starRingEnd ℂ y * (a.size : ℂ)⁻¹) (transform .forward a)
        (transform .forward b)) lag = correlation a b lag := by
  have whole : (a.size : ℂ) ≠ 0 := by exact_mod_cast Nat.ne_of_gt room
  rw [bin, Array.size_zipWith, size_transform, size_transform, same, min_self, correlation]
  calc
    ∑ k ∈ range a.size, turn a.size (sign .backward * lag * k) *
        entry (Array.zipWith (fun x y => x * starRingEnd ℂ y * (a.size : ℂ)⁻¹)
          (transform .forward a) (transform .forward b)) k
      = (a.size : ℂ)⁻¹ * ∑ k ∈ range a.size, turn a.size (lag * k) * (bin .forward a k *
          ∑ n ∈ range a.size, turn a.size (n * k) * starRingEnd ℂ (entry b n)) := by
        rw [mul_sum]
        refine sum_congr rfl fun k member => ?_
        rw [mem_range] at member
        rw [entry_zipWith _ (by simpa using member) (by simpa [same] using member),
          entry_transform member, entry_transform (same ▸ member), conj_bin, same, sign, one_mul]
        simp only [mul_comm (k : ℤ)]
        ring
    _ = ∑ n ∈ range a.size,
          starRingEnd ℂ (entry b n) * entry a ((lag + n : ℤ) % a.size).toNat := by
        rw [sum_bins room, inv_mul_cancel_left₀ whole]
    _ = ∑ n ∈ range a.size, entry a ((n + lag) % a.size) * starRingEnd ℂ (entry b n) := by
        refine sum_congr rfl fun n _ => ?_
        have around : ((lag + n : ℤ) % a.size).toNat = (n + lag) % a.size := by
          rw [add_comm]
          norm_cast
        rw [around, mul_comm]

variable {π : Type} {planner : Planner ℂ π} {length : ℕ}

structure Convolver.Ready (planner : Planner ℂ π) (length : ℕ) (convolver : Convolver ℂ π) :
    Prop where
  kind : convolver.combination = .correlation
  fixed : convolver.length = length
  forwardA : planner.Prepared .forward length convolver.forwardA
  forwardB : planner.Prepared .forward length convolver.forwardB
  backward : planner.Prepared .backward length convolver.backward
  spectrumA : convolver.spectrumA.size = length
  spectrumB : convolver.spectrumB.size = length

namespace Convolver

theorem Fit.ready {convolver : Convolver ℂ π} (fit : convolver.Fit planner .correlation length) :
    convolver.Ready planner length :=
  { fit with }

theorem Ready.fit {convolver : Convolver ℂ π} (ready : convolver.Ready planner length) :
    convolver.Fit planner .correlation length :=
  { ready with }

theorem exists_prepare (reliable : planner.Reliable) (room : 0 < length) :
    ∃ convolver, prepare planner .correlation (.silent .complex length) (.silent .complex length)
        (.silent .complex length) = .ok convolver ∧ convolver.Ready planner length := by
  have shapes (buffer : Buffer ℂ) (member : buffer ∈ [.silent .complex length,
      .silent .complex length, .silent .complex length]) :
      buffer.format = .complex ∧ buffer.size = length := by
    simp_all
  obtain ⟨convolver, prepared⟩ := exists_fit reliable .correlation room shapes
  have fit := fit_prepare prepared
  rw [Buffer.size_silent] at fit
  exact ⟨convolver, prepared, fit.ready⟩

theorem Ready.run {convolver : Convolver ℂ π} (ready : convolver.Ready planner length)
    (exact : planner.IsFourier) (reliable : planner.Reliable) (room : 0 < length)
    {destination a b : Array ℂ} (target : destination.size = length) (left : a.size = length)
    (right : b.size = length) :
    ∃ (after : Convolver ℂ π) (product : Array ℂ),
      convolver.run planner destination a b = ⟨.ok (), after, product, a, b⟩ ∧
      after.Ready planner length ∧ product.size = length ∧
      ∀ lag < length, entry product lag = correlation a b lag := by
  have kept : planner.KeepsBins := exact.keepsBins
  have done := ready.fit.succeeds reliable kept target left right
  have combined : Combination.correlation.bin (Component.reciprocal a.size) =
      fun x y : ℂ => x * starRingEnd ℂ y * (a.size : ℂ)⁻¹ := by
    funext x y
    simp [Combination.bin]
  have size : (Combination.correlation.block transform a b).size = length := by
    simp [Combination.block, left, right]
  refine ⟨_, _, ready.fit.run_ok exact.evaluates exact.keepsTime done,
    (ready.fit.run reliable kept destination a b).ready, size, fun lag inside => ?_⟩
  rw [Combination.block, combined, entry_transform (by simpa [left, right] using inside)]
  exact bin_product (left.symm ▸ room) (right.trans left.symm) lag

end Convolver

end Wideband
