import Wideband.Proofs.Sample.Exact
import Wideband.Proofs.Spectrum.Rotation
import Wideband.Proofs.Transform.Planners
import Wideband.Stitch.Block

namespace Wideband.Stitch

open Dft

/-!
What one block of a stitched stream holds, over exact samples. The spectrum that is transformed
back holds every bin of every input once: segment `k` belongs to input `k`, its negative
frequencies first (`Stacked`). Transforming back and forth again only multiplies by the size, which
leaves the number of inputs as the common gain (`Joined`).
-/

/-- The segments of some blocks, one behind the other. Each has the bins of its block in ascending
frequency order, divided by the length that all blocks share. -/
structure Stacked (length : ℕ) (blocks : List (Array ℂ)) (spectrum : Array ℂ) : Prop where
  size : spectrum.size = length * blocks.length
  bins : ∀ k (inside : k < blocks.length), ∀ j < length,
    entry spectrum (k * length + j) =
      bin .forward blocks[k] (((j : ℤ) - (length / 2 : ℕ)) % length) * (length : ℂ)⁻¹

/-- A block that carries some others in bands of their own, in ascending frequency order, with the
number of the others as the gain of all of them. -/
structure Joined (length : ℕ) (blocks : List (Array ℂ)) (joined : Array ℂ) : Prop where
  size : joined.size = blocks.length * length
  bins : ∀ k (inside : k < blocks.length), ∀ j < length,
    entry (transform .forward joined) (k * length + j) =
      blocks.length *
        entry (transform .forward blocks[k]) (((j : ℤ) - (length / 2 : ℕ)) % length).toNat

theorem Stacked.nil (length : ℕ) {spectrum : Array ℂ} (empty : spectrum.size = 0) :
    Stacked length [] spectrum where
  size := by simp [empty]
  bins := nofun

theorem Stacked.cons {length : ℕ} {block segment spectrum : Array ℂ} {blocks : List (Array ℂ)}
    (size : segment.size = length)
    (bins : ∀ j < length, entry segment j =
      bin .forward block (((j : ℤ) - (length / 2 : ℕ)) % length) * (length : ℂ)⁻¹)
    (rest : Stacked length blocks spectrum) :
    Stacked length (block :: blocks) (segment ++ spectrum) where
  size := by
    rw [Array.size_append, size, rest.size, List.length_cons]
    ring
  bins := by
    intro k inside j bound
    cases k with
    | zero =>
        rw [Nat.zero_mul, Nat.zero_add, entry_append_left (size ▸ bound)]
        exact bins j bound
    | succ k =>
        have place : (k + 1) * length + j = segment.size + (k * length + j) := by
          rw [size]
          ring
        rw [place, entry_append_right]
        exact rest.bins k (by simpa using inside) j bound

theorem Stacked.joined {length : ℕ} (room : 0 < length) {blocks : List (Array ℂ)}
    {spectrum : Array ℂ} (stacked : Stacked length blocks spectrum)
    (sizes : ∀ block ∈ blocks, block.size = length) :
    Joined length blocks (transform .backward spectrum) where
  size := by rw [size_transform, stacked.size, Nat.mul_comm]
  bins := by
    intro k inside j bound
    have place : k * length + j < spectrum.size := by
      rw [stacked.size]
      calc k * length + j < (k + 1) * length := by rw [Nat.succ_mul]; omega
        _ ≤ blocks.length * length := Nat.mul_le_mul_right _ inside
        _ = length * blocks.length := Nat.mul_comm _ _
    have around : (((k * length + j : ℕ) : ℤ) % spectrum.size).toNat = k * length + j := by
      rw [Int.emod_eq_of_lt (Int.natCast_nonneg _) (by exact_mod_cast place), Int.toNat_natCast]
    have above := Int.emod_nonneg ((j : ℤ) - (length / 2 : ℕ)) (by omega : (length : ℤ) ≠ 0)
    have below := Int.emod_lt_of_pos ((j : ℤ) - (length / 2 : ℕ)) (by omega : (0 : ℤ) < length)
    have own : blocks[k].size = length := sizes _ (List.getElem_mem inside)
    have gain : (length : ℂ) ≠ 0 := by exact_mod_cast Nat.ne_of_gt room
    rw [entry_transform (by simpa using place), bin_transform (by omega) (by decide), around,
      stacked.bins k inside j bound, entry_transform (by omega), Int.toNat_of_nonneg above,
      stacked.size]
    push_cast
    field_simp

theorem entry_segment {planner : Planner ℂ π} (exact : planner.IsFourier) {length : ℕ} {plan : π}
    {samples bins : Array ℂ} (prepared : planner.Prepared .forward length plan)
    (filled : bins.size = length)
    (applied : (planner.apply plan samples bins).result = .ok ()) :
    (Bench.segment planner length plan samples bins).frequency.size = length ∧
      ∀ j < length, entry (Bench.segment planner length plan samples bins).frequency j =
        bin .forward samples (((j : ℤ) - (length / 2 : ℕ)) % length) * (length : ℂ)⁻¹ := by
  obtain ⟨same, _, _⟩ := exact.fits prepared applied
  have spectrum := exact.forward_exact prepared applied filled
  have size : (planner.apply plan samples bins).frequency.size = length := by
    rw [spectrum, size_transform, same]
  have shifted : (Bench.segment planner length plan samples bins).frequency =
      (Spectrum.rotateRight (transform .forward samples) (length / 2)).map
        (· * ((length : ℂ)⁻¹)) := by
    simp only [Bench.segment, applied, Spectrum.shiftScaled, Spectrum.shift, spectrum]
    simp [same]
  refine ⟨by rw [shifted]; simp [same], fun j bound => ?_⟩
  have room : 0 < length := Nat.zero_lt_of_lt bound
  have whole : ((transform .forward samples).size : ℤ) = length := by rw [size_transform, same]
  have above := Int.emod_nonneg ((j : ℤ) - (length / 2 : ℕ)) (by omega : (length : ℤ) ≠ 0)
  have below := Int.emod_lt_of_pos ((j : ℤ) - (length / 2 : ℕ)) (by omega : (0 : ℤ) < length)
  have placed : ((((j : ℤ) - (length / 2 : ℕ)) % length).toNat : ℤ) =
      ((j : ℤ) - (length / 2 : ℕ)) % length := Int.toNat_of_nonneg above
  rw [shifted, entry_map, entry, Spectrum.getElem?_rotateRight (by simp [same]; omega)
    (by simp [same, bound]), whole, ← entry, entry_transform (by omega), placed]

namespace Bench

section Ready

variable {C R π : Type} {planner : Planner C π} {inputs length : ℕ}

theorem size_parts {spectrum : Array C} {count : ℕ}
    (filled : spectrum.size = length * (count + 1)) :
    (spectrum.extract 0 length).size = length ∧
      (spectrum.extract length spectrum.size).size = length * count := by
  rw [Nat.mul_succ] at filled
  rw [Array.size_extract, Array.size_extract, filled]
  omega

theorem segment_applied [Component R] [Sample C R] (planner : Planner C π) (length : ℕ) (plan : π)
    (samples bins : Array C) :
    (segment planner length plan samples bins).result =
        (planner.apply plan samples bins).result ∧
      (segment planner length plan samples bins).plan = (planner.apply plan samples bins).plan ∧
      (segment planner length plan samples bins).time = (planner.apply plan samples bins).time := by
  cases applied : (planner.apply plan samples bins).result <;> simp [segment, applied]

structure Ready (planner : Planner C π) (inputs length : ℕ) (bench : Bench C π) : Prop where
  fixed : bench.length = length
  count : bench.forward.length = inputs
  forward : ∀ plan ∈ bench.forward, planner.Prepared .forward length plan
  backward : planner.Prepared .backward (length * inputs) bench.backward
  spectrum : bench.spectrum.size = length * inputs
  output : bench.output.size = length * inputs

theorem prepared_prepareForward {segment : Array C} {buffers : List (Buffer C)} {plans : List π}
    (sizes : ∀ buffer ∈ buffers, buffer.size = length)
    (prepared : prepareForward planner segment buffers = .ok plans) :
    plans.length = buffers.length ∧ ∀ plan ∈ plans, planner.Prepared .forward length plan := by
  induction buffers generalizing plans with
  | nil =>
      cases prepared
      exact ⟨rfl, nofun⟩
  | cons buffer buffers ih =>
      cases first : planner.prepare buffer segment .forward with
      | error cause => simp [prepareForward, first, bind, Except.bind] at prepared
      | ok plan =>
          cases later : prepareForward planner segment buffers with
          | error cause => simp [prepareForward, first, later, bind, Except.bind] at prepared
          | ok rest =>
              obtain rfl : plan :: rest = plans := by
                simpa [prepareForward, first, later, bind, Except.bind, pure, Except.pure]
                  using prepared
              obtain ⟨counted, each⟩ := ih (fun buffer member => sizes buffer (by simp [member])) later
              refine ⟨by rw [List.length_cons, counted, List.length_cons], fun next member => ?_⟩
              rcases List.mem_cons.mp member with rfl | member
              · exact .prepare (sizes buffer (by simp)) first
              · exact each next member

theorem ready_prepare [Zero C] {bench : Bench C π}
    (prepared : prepare planner inputs length = .ok bench) :
    bench.Ready planner inputs length := by
  simp only [prepare, bind, Except.bind] at prepared
  split at prepared
  · cases prepared
  rename_i plans forward
  split at prepared
  · cases prepared
  rename_i plan backward
  cases prepared
  have sizes : ∀ buffer ∈ List.replicate inputs (Buffer.silent .complex length : Buffer C),
      buffer.size = length := by simp
  obtain ⟨counted, each⟩ := prepared_prepareForward sizes forward
  exact {
    fixed := rfl
    count := by rw [counted, List.length_replicate]
    forward := each
    backward := .prepare (by simp [Buffer.size]) backward
    spectrum := Array.size_replicate
    output := Array.size_replicate }

end Ready

variable {π : Type} {planner : Planner ℂ π} {inputs length : ℕ}

theorem segments_stacked (exact : planner.IsFourier) {plans : List π} {buffers : List (Buffer ℂ)}
    {spectrum : Array ℂ} (prepared : ∀ plan ∈ plans, planner.Prepared .forward length plan)
    (paired : plans.length = buffers.length) (filled : spectrum.size = length * plans.length)
    (done : (segments planner length plans buffers spectrum).result = .ok ()) :
    (∀ plan ∈ (segments planner length plans buffers spectrum).plans,
      planner.Prepared .forward length plan) ∧
    (segments planner length plans buffers spectrum).plans.length = plans.length ∧
    (segments planner length plans buffers spectrum).buffers = buffers ∧
    ∃ blocks : List (Array ℂ), buffers = blocks.map .complex ∧
      (∀ block ∈ blocks, block.size = length) ∧
      Stacked length blocks (segments planner length plans buffers spectrum).spectrum := by
  induction plans generalizing buffers spectrum with
  | nil =>
      obtain rfl := List.length_eq_zero_iff.mp paired.symm
      have nothing : segments planner length [] [] spectrum = ⟨.ok (), [], [], spectrum⟩ := by
        simp [segments]
      rw [nothing]
      exact ⟨nofun, rfl, rfl, [], rfl, nofun, .nil length filled⟩
  | cons plan plans ih =>
      cases buffers with
      | nil => simp at paired
      | cons buffer buffers =>
          cases read : buffer.samples with
          | error cause => simp [segments, read] at done
          | ok samples =>
              obtain rfl : buffer = .complex samples := by
                cases buffer <;> simp_all [Buffer.samples]
              obtain ⟨front, later⟩ := size_parts filled
              have first := prepared plan (by simp)
              obtain ⟨sameResult, samePlan, sameTime⟩ :=
                segment_applied planner length plan samples (spectrum.extract 0 length)
              cases applied : (planner.apply plan samples (spectrum.extract 0 length)).result with
              | error cause => simp [segments, read, sameResult, applied] at done
              | ok _ =>
                  obtain ⟨size, _, _⟩ := exact.fits first applied
                  obtain ⟨unread, _⟩ := exact.forward first applied
                  obtain ⟨segmentSize, segmentBins⟩ := entry_segment exact first front applied
                  simp only [segments, read, sameResult, applied, samePlan, sameTime, unread]
                    at done ⊢
                  obtain ⟨kept, counted, same, blocks, rfl, sizes, stacked⟩ :=
                    ih (fun plan member => prepared plan (by simp [member]))
                      (by simpa using paired) later done
                  refine ⟨?_, by rw [List.length_cons, counted, List.length_cons], by rw [same],
                    samples :: blocks, rfl, ?_, .cons segmentSize segmentBins stacked⟩
                  · intro next member
                    rcases List.mem_cons.mp member with rfl | member
                    · exact .apply first _ _
                    · exact kept next member
                  · intro block member
                    rcases List.mem_cons.mp member with rfl | member
                    · exact size
                    · exact sizes block member

theorem segments_done (reliable : planner.Reliable) {plans : List π}
    {blocks : List (Array ℂ)} {spectrum : Array ℂ}
    (prepared : ∀ plan ∈ plans, planner.Prepared .forward length plan)
    (paired : plans.length = blocks.length) (filled : spectrum.size = length * plans.length)
    (sizes : ∀ block ∈ blocks, block.size = length) :
    (segments planner length plans (blocks.map .complex) spectrum).result = .ok () := by
  induction plans generalizing blocks spectrum with
  | nil => simp [segments]
  | cons plan plans ih =>
      cases blocks with
      | nil => cases paired
      | cons block blocks =>
          obtain ⟨front, later⟩ := size_parts filled
          have applied := reliable.applies (prepared plan (by simp)) (sizes block (by simp))
            front.ge
          have rest := ih (fun plan member => prepared plan (by simp [member]))
            (by simpa using paired) later fun block member => sizes block (by simp [member])
          simp [segments, Buffer.samples, segment_applied, applied, rest]

theorem Ready.make {bench : Bench ℂ π} (ready : bench.Ready planner inputs length)
    (exact : planner.IsFourier) (room : 0 < length) {buffers : List (Buffer ℂ)}
    (paired : buffers.length = inputs) (done : (bench.make planner buffers).result = .ok ()) :
    (bench.make planner buffers).bench.Ready planner inputs length ∧
      (bench.make planner buffers).buffers = buffers ∧
      ∃ blocks : List (Array ℂ), buffers = blocks.map .complex ∧
        (∀ block ∈ blocks, block.size = length) ∧
        Joined length blocks (bench.make planner buffers).bench.output := by
  obtain rfl := ready.fixed
  cases filled : (segments planner bench.length bench.forward buffers bench.spectrum).result with
  | error cause => simp [Bench.make, filled] at done
  | ok _ =>
      obtain ⟨kept, counted, same, blocks, rfl, sizes, stacked⟩ :=
        segments_stacked exact ready.forward (ready.count.trans paired.symm)
          (by rw [ready.spectrum, ready.count]) filled
      rw [List.length_map] at paired
      have width := stacked.size
      rw [paired] at width
      simp only [Bench.make, filled] at done ⊢
      have back := exact.backward_exact ready.backward done width
      obtain ⟨_, _, unchanged⟩ := exact.fits ready.backward done
      refine ⟨{
        fixed := rfl
        count := counted.trans ready.count
        forward := kept
        backward := .apply ready.backward _ _
        spectrum := unchanged.trans width
        output := by simp only [back, size_transform, width] }, same, blocks, rfl, sizes, ?_⟩
      rw [back]
      exact stacked.joined room sizes

theorem Ready.makes {bench : Bench ℂ π} (ready : bench.Ready planner inputs length)
    (exact : planner.IsFourier) (reliable : planner.Reliable) {blocks : List (Array ℂ)}
    (paired : blocks.length = inputs) (sizes : ∀ block ∈ blocks, block.size = length) :
    (bench.make planner (blocks.map .complex)).result = .ok () := by
  obtain rfl := ready.fixed
  have filled := segments_done reliable ready.forward (ready.count.trans paired.symm)
    (by rw [ready.spectrum, ready.count]) sizes
  obtain ⟨_, _, _, same, split, _, stacked⟩ :=
    segments_stacked exact ready.forward (by rw [ready.count, List.length_map, paired])
      (by rw [ready.spectrum, ready.count]) filled
  have count : same.length = inputs := by
    have equal := congrArg List.length split
    rw [List.length_map, List.length_map] at equal
    rw [← equal, paired]
  have width := stacked.size
  rw [count] at width
  simp only [Bench.make, filled]
  exact reliable.applies ready.backward ready.output width.ge

end Bench

end Wideband.Stitch
