import Wideband.Proofs.Stitch.Stacking

namespace Wideband.Stitch

variable {C R π : Type}

section Preparing

variable [Zero C] {planner : Planner C π} {kernel : Kernel C} {inputs length : ℕ}

theorem Bench.prepareForward_exists (computes : planner.Computes kernel) {segment : Array C}
    (room : 0 < length) (fits : segment.size = length) (inputs : ℕ) :
    ∃ plans, Bench.prepareForward planner segment
      (List.replicate inputs (.silent .complex length)) = .ok plans := by
  induction inputs with
  | zero => exact ⟨[], rfl⟩
  | succ inputs ih =>
      obtain ⟨plans, later⟩ := ih
      have silence : (Array.replicate length (0 : C)).size = length := Array.size_replicate
      obtain ⟨plan, first⟩ : ∃ plan,
          planner.prepare (.silent .complex length) segment .forward = .ok plan :=
        computes.prepares .forward (silence.symm ▸ room : _) (fits.trans silence.symm)
      refine ⟨plan :: plans, ?_⟩
      simp only [List.replicate_succ, Bench.prepareForward, first, later, bind, Except.bind]
      rfl

theorem Bench.prepare_exists (computes : planner.Computes kernel) (some : 0 < inputs)
    (room : 0 < length) : ∃ bench : Bench C π, Bench.prepare planner inputs length = .ok bench := by
  have least : length ≤ length * inputs := Nat.le_mul_of_pos_right _ some
  have whole : (Array.replicate (length * inputs) (0 : C)).size = length * inputs :=
    Array.size_replicate
  have front : ((Array.replicate (length * inputs) (0 : C)).extract 0 length).size = length := by
    rw [Array.size_extract, whole]
    omega
  obtain ⟨forward, prepared⟩ := Bench.prepareForward_exists computes room front inputs
  obtain ⟨backward, preparedBack⟩ : ∃ plan,
      planner.prepare (.complex (Array.replicate (length * inputs) (0 : C)))
        (Array.replicate (length * inputs) (0 : C)) .backward = .ok plan :=
    computes.prepares .backward (by omega) rfl
  simp only [Bench.prepare, prepared, preparedBack, bind, Except.bind]
  exact ⟨_, rfl⟩

end Preparing

variable [Component R] [Sample C R]

/-- The bins of some blocks, one segment behind the other, each in ascending frequency order and
scaled by the length that all blocks share. -/
def woof (kernel : Kernel C) (length : ℕ) : List (Array C) → Array C
  | [] => #[]
  | block :: blocks =>
      let spectrum : Spectrum C := ⟨kernel .forward block, 0, .zeroFirst⟩
      (spectrum.shiftScaled (Component.reciprocal length)).bins ++ woof kernel length blocks

/-- One block of a stitched stream from a block of each input. -/
def weave (kernel : Kernel C) (length : ℕ) (blocks : List (Array C)) : Array C :=
  kernel .backward (woof kernel length blocks)

namespace Bench

variable {planner : Planner C π} {kernel : Kernel C} {inputs length : ℕ}

theorem segment_woven (computes : planner.Computes kernel) {plan : π} {samples bins : Array C}
    (prepared : planner.Prepared .forward length plan) (fits : samples.size = length)
    (filled : bins.size = length) :
    (segment planner length plan samples bins).result = .ok () ∧
      (segment planner length plan samples bins).frequency.size = length ∧
      ∀ blocks, (segment planner length plan samples bins).frequency ++ woof kernel length blocks =
        woof kernel length (samples :: blocks) := by
  obtain ⟨done, _, size⟩ := computes.applies prepared fits filled
  have same := computes.forward prepared fits filled
  have answer : (segment planner length plan samples bins).frequency =
      (Spectrum.shiftScaled ⟨kernel .forward samples, 0, .zeroFirst⟩
        (Component.reciprocal length)).bins := by
    simp only [segment, done, same]
  refine ⟨(segment_applied planner length plan samples bins).1.trans done, ?_, fun blocks => ?_⟩
  · rw [answer, ← same]
    simp [Spectrum.shiftScaled, Spectrum.shift, size]
  · rw [answer, woof]

/-- Segments into which all blocks have been transformed; plans and buffers can be used again. -/
structure Woven (planner : Planner C π) (kernel : Kernel C) (length : ℕ) (blocks : List (Array C))
    (filled : Segments C π) : Prop where
  done : filled.result = .ok ()
  plans : ∀ plan ∈ filled.plans, planner.Prepared .forward length plan
  planCount : filled.plans.length = blocks.length
  buffers : ∀ buffer ∈ filled.buffers, ∃ held, buffer = .complex held ∧ held.size = length
  bufferCount : filled.buffers.length = blocks.length
  spectrum : filled.spectrum = woof kernel length blocks
  size : filled.spectrum.size = length * blocks.length

theorem segments_woven (computes : planner.Computes kernel) {plans : List π}
    {blocks : List (Array C)} {spectrum : Array C}
    (prepared : ∀ plan ∈ plans, planner.Prepared .forward length plan)
    (paired : plans.length = blocks.length) (filled : spectrum.size = length * blocks.length)
    (sizes : ∀ block ∈ blocks, block.size = length) :
    Woven planner kernel length blocks
      (segments planner length plans (blocks.map .complex) spectrum) := by
  induction plans generalizing blocks spectrum with
  | nil =>
      obtain rfl := List.length_eq_zero_iff.mp paired.symm
      obtain rfl := Array.size_eq_zero_iff.mp filled
      have nothing : segments planner length [] [] (#[] : Array C) = ⟨.ok (), [], [], #[]⟩ := by
        simp [segments]
      rw [List.map_nil, nothing]
      exact ⟨rfl, by simp, rfl, by simp, rfl, rfl, rfl⟩
  | cons plan plans ih =>
      cases blocks with
      | nil => cases paired
      | cons block blocks =>
          obtain ⟨first, others⟩ := List.forall_mem_cons.mp prepared
          obtain ⟨fits, sizes⟩ := List.forall_mem_cons.mp sizes
          obtain ⟨front, later⟩ := size_parts filled
          obtain ⟨done, size, segment⟩ := segment_woven computes first fits front
          obtain ⟨sameResult, samePlan, sameTime⟩ :=
            segment_applied planner length plan block (spectrum.extract 0 length)
          obtain ⟨_, kept, _⟩ := computes.applies first fits front
          have rest := ih others (Nat.succ.inj paired) later sizes
          simp only [List.map_cons, segments, Buffer.samples, done]
          exact {
            done := rest.done
            plans := List.forall_mem_cons.mpr ⟨samePlan ▸ .apply first _ _, rest.plans⟩
            planCount := by rw [List.length_cons, rest.planCount, List.length_cons]
            buffers := List.forall_mem_cons.mpr ⟨⟨_, rfl, sameTime ▸ kept⟩, rest.buffers⟩
            bufferCount := by rw [List.length_cons, rest.bufferCount, List.length_cons]
            spectrum := by rw [rest.spectrum, segment]
            size := by rw [Array.size_append, size, rest.size, List.length_cons, Nat.mul_succ,
              Nat.add_comm] }

theorem Ready.weaves {bench : Bench C π} (ready : bench.Ready planner inputs length)
    (computes : planner.Computes kernel) {blocks : List (Array C)} (paired : blocks.length = inputs)
    (sizes : ∀ block ∈ blocks, block.size = length) :
    (bench.make planner (blocks.map .complex)).result = .ok () ∧
    (bench.make planner (blocks.map .complex)).bench.Ready planner inputs length ∧
    (bench.make planner (blocks.map .complex)).bench.output = weave kernel length blocks ∧
    (bench.make planner (blocks.map .complex)).buffers.length = inputs ∧
    ∀ buffer ∈ (bench.make planner (blocks.map .complex)).buffers,
      ∃ held, buffer = .complex held ∧ held.size = length := by
  obtain rfl := ready.fixed
  obtain rfl := paired
  have woven := segments_woven computes ready.forward ready.count ready.spectrum sizes
  obtain ⟨done, output, spectrum⟩ := computes.applies ready.backward ready.output woven.size
  have back := computes.backward ready.backward ready.output woven.size
  simp only [Bench.make, woven.done]
  exact ⟨done, {
    fixed := rfl
    count := woven.planCount
    forward := woven.plans
    backward := .apply ready.backward _ _
    spectrum := spectrum
    output := output }, by rw [back, woven.spectrum, weave], woven.bufferCount, woven.buffers⟩

end Bench

end Wideband.Stitch
