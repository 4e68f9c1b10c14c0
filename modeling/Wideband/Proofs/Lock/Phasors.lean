import Wideband.Lock.Rotators
import Wideband.Proofs.Sample.Exact

namespace Wideband.Lock

open NormedSpace (norm_normalize normalize_eq_self_of_norm_eq_one normalize_smul_of_pos
  normalize_zero_eq_zero)

/-!
Rotators of exact samples. A pair of samples adds the direction of the one against the other,
whatever their magnitudes are, so a rotator undoes any constant phase of a stream, however the
stream fades (`rotators_undo`).
-/

/-- The direction of a sample of the reference against one of a stream; zero if either is zero. -/
noncomputable def phasor (reference stream : ℂ) : ℂ :=
  NormedSpace.normalize (reference * starRingEnd ℂ stream)

noncomputable def heading (reference stream : Array ℂ) : ℂ :=
  ((Array.zip reference stream).toList.map fun pair : ℂ × ℂ => phasor pair.1 pair.2).sum

theorem addPhasor_exact (sum reference stream : ℂ) :
    addPhasor sum reference stream = sum + phasor reference stream := by
  unfold addPhasor phasor
  simp only [Sample.conj_complex, Sample.power_complex, Sample.magnitude_complex,
    Sample.divide_complex, Component.exceeds_real]
  generalize reference * starRingEnd ℂ stream = product
  split
  · rw [NormedSpace.normalize, Complex.real_smul, Complex.ofReal_inv, div_eq_inv_mul]
  · rename_i silent
    rw [Complex.normSq_pos, not_not] at silent
    rw [silent, normalize_zero_eq_zero, add_zero]

theorem foldl_addPhasor (pairs : List (ℂ × ℂ)) (sum : ℂ) :
    pairs.foldl (fun sum pair => addPhasor sum pair.1 pair.2) sum =
      sum + (pairs.map fun pair : ℂ × ℂ => phasor pair.1 pair.2).sum := by
  induction pairs generalizing sum with
  | nil => simp
  | cons pair pairs ih =>
      rw [List.foldl_cons, ih, addPhasor_exact, List.map_cons, List.sum_cons, add_assoc]

theorem rotator_exact (reference stream : Array ℂ) :
    rotator reference stream =
      if heading reference stream = 0 then 1
      else NormedSpace.normalize (heading reference stream) := by
  have sum : (Array.zip reference stream).foldl (fun sum pair => addPhasor sum pair.1 pair.2)
      (0 : ℂ) = heading reference stream := by
    rw [← Array.foldl_toList, heading, foldl_addPhasor, zero_add]
  have turned : rotator reference stream =
      if Component.same (Sample.power (heading reference stream)) 0 then 1
      else Sample.unit (Sample.angle (heading reference stream)) := by
    rw [← sum]
    rfl
  rw [turned]
  simp only [Sample.power_complex, Sample.angle_complex, Sample.unit_complex,
    Component.same_real, Complex.normSq_eq_zero]
  generalize heading reference stream = total
  split
  · rfl
  · rename_i some
    have size : (‖total‖ : ℂ) ≠ 0 := by simpa using some
    rw [NormedSpace.normalize, Complex.real_smul, Complex.ofReal_inv, eq_inv_mul_iff_mul_eq₀ size,
      Complex.norm_mul_exp_arg_mul_I]

theorem norm_rotator (reference stream : Array ℂ) : ‖rotator reference stream‖ = 1 := by
  rw [rotator_exact]
  split
  · exact norm_one
  · rename_i some
    exact norm_normalize some

section Fading

/-- A stream that repeats a reference, turned by a constant phase and with a gain of its own for
every sample. -/
structure Faded (turn : ℂ) (gain : ℕ → ℝ) (reference stream : Array ℂ) : Prop where
  unit : ‖turn‖ = 1
  level : ∀ index, 0 ≤ gain index
  sample : ∀ index (_ : index < reference.size) (_ : index < stream.size),
    stream[index] = gain index * turn * reference[index]
  loud : ∃ index, ∃ (_ : index < reference.size), index < stream.size ∧
    gain index * reference[index] ≠ 0

variable {turn : ℂ} {reference stream : Array ℂ}

theorem phasor_faded (unit : ‖turn‖ = 1) {gain : ℝ} (level : 0 ≤ gain) (sample : ℂ) :
    phasor sample (gain * turn * sample) =
      if gain * sample = 0 then 0 else starRingEnd ℂ turn := by
  have product : sample * starRingEnd ℂ (gain * turn * sample) =
      (gain * Complex.normSq sample) • starRingEnd ℂ turn := by
    rw [map_mul, map_mul, Complex.conj_ofReal, Complex.real_smul, Complex.ofReal_mul,
      ← Complex.mul_conj]
    ring
  rw [phasor, product]
  split
  · rename_i silent
    have nothing : gain * Complex.normSq sample = 0 := by
      rcases mul_eq_zero.mp silent with none | none
      · rw [Complex.ofReal_eq_zero.mp none, zero_mul]
      · rw [none, map_zero, mul_zero]
    rw [nothing, zero_smul, normalize_zero_eq_zero]
  · rename_i loud
    obtain ⟨some, other⟩ := mul_ne_zero_iff.mp loud
    have power : 0 < gain * Complex.normSq sample :=
      mul_pos (lt_of_le_of_ne level (Ne.symm (Complex.ofReal_ne_zero.mp some)))
        (Complex.normSq_pos.mpr other)
    rw [normalize_smul_of_pos power, normalize_eq_self_of_norm_eq_one]
    rw [RCLike.norm_conj, unit]

theorem sum_faded (unit : ‖turn‖ = 1) (pairs : List (ℂ × ℂ))
    (faded : ∀ pair ∈ pairs, ∃ gain : ℝ, 0 ≤ gain ∧ pair.2 = gain * turn * pair.1) :
    ∃ count : ℕ,
      (pairs.map fun pair : ℂ × ℂ => phasor pair.1 pair.2).sum =
        (count : ℝ) • starRingEnd ℂ turn ∧
      ((∃ pair ∈ pairs, pair.2 ≠ 0) → 0 < count) := by
  induction pairs with
  | nil => exact ⟨0, by simp, by simp⟩
  | cons pair pairs ih =>
      obtain ⟨⟨gain, level, same⟩, others⟩ := List.forall_mem_cons.mp faded
      obtain ⟨count, total, positive⟩ := ih others
      have own := phasor_faded unit level pair.1
      rw [← same] at own
      rw [List.map_cons, List.sum_cons, total, own]
      split
      · rename_i silent
        refine ⟨count, zero_add _, fun ⟨other, member, loud⟩ => ?_⟩
        have quiet : pair.2 = 0 := by rw [same, mul_right_comm, silent, zero_mul]
        rcases List.mem_cons.mp member with rfl | member
        · exact absurd quiet loud
        · exact positive ⟨other, member, loud⟩
      · refine ⟨count + 1, ?_, fun _ => Nat.succ_pos count⟩
        rw [Nat.cast_add_one, add_smul, one_smul, add_comm]

theorem rotator_faded {gain : ℕ → ℝ} (faded : Faded turn gain reference stream) :
    rotator reference stream = starRingEnd ℂ turn := by
  have each : ∀ pair ∈ (Array.zip reference stream).toList,
      ∃ gain : ℝ, 0 ≤ gain ∧ pair.2 = gain * turn * pair.1 := by
    intro pair member
    obtain ⟨index, inside, rfl⟩ := List.getElem_of_mem member
    simp only [Array.length_toList, Array.size_zip] at inside
    refine ⟨gain index, faded.level index, ?_⟩
    simpa using faded.sample index (by omega) (by omega)
  obtain ⟨count, total, positive⟩ := sum_faded faded.unit _ each
  have turned : starRingEnd ℂ turn ≠ 0 := by
    rw [← norm_ne_zero_iff, RCLike.norm_conj, faded.unit]
    exact one_ne_zero
  have some : (0 : ℝ) < count := by
    obtain ⟨index, inReference, inStream, loud⟩ := faded.loud
    refine Nat.cast_pos.mpr (positive ⟨(reference[index], stream[index]), ?_, ?_⟩)
    · exact List.mem_iff_getElem.mpr ⟨index, by simp; omega, by simp⟩
    · rw [faded.sample index inReference inStream, mul_right_comm]
      exact mul_ne_zero loud ((map_ne_zero _).mp turned)
  change heading reference stream = _ at total
  rw [rotator_exact, total, if_neg (smul_ne_zero some.ne' turned), normalize_smul_of_pos some,
    normalize_eq_self_of_norm_eq_one]
  rw [RCLike.norm_conj, faded.unit]

theorem Faded.levels {gain : ℕ → ℝ} (faded : Faded turn gain reference stream) {index : ℕ}
    (inReference : index < reference.size) (inStream : index < stream.size) :
    rotator reference stream * stream[index] = gain index * reference[index] := by
  have whole : starRingEnd ℂ turn * turn = 1 := by
    rw [← Complex.normSq_eq_conj_mul_self, Complex.normSq_eq_norm_sq, faded.unit]
    norm_num
  rw [rotator_faded faded, faded.sample index inReference inStream]
  linear_combination (gain index * reference[index] : ℂ) * whole

end Fading

noncomputable def rescaled (gain : ℕ → ℝ) (samples : Array ℂ) : Array ℂ :=
  samples.mapIdx fun index sample => gain index * sample

theorem phasor_rescaled {gain other : ℝ} (positive : 0 < gain) (too : 0 < other)
    (reference stream : ℂ) :
    phasor (gain * reference) (other * stream) = phasor reference stream := by
  have product : gain * reference * starRingEnd ℂ (other * stream) =
      (gain * other) • (reference * starRingEnd ℂ stream) := by
    rw [map_mul, Complex.conj_ofReal, Complex.real_smul, Complex.ofReal_mul]
    ring
  rw [phasor, product, normalize_smul_of_pos (mul_pos positive too), phasor]

theorem rotator_rescaled {gain other : ℕ → ℝ} (positive : ∀ index, 0 < gain index)
    (too : ∀ index, 0 < other index) (reference stream : Array ℂ) :
    rotator (rescaled gain reference) (rescaled other stream) = rotator reference stream := by
  have same : heading (rescaled gain reference) (rescaled other stream) =
      heading reference stream := by
    refine congrArg List.sum (List.ext_getElem (by simp [rescaled]) fun index _ _ => ?_)
    simpa [rescaled] using phasor_rescaled (positive index) (too index) _ _
  rw [rotator_exact, rotator_exact, same]

theorem rotators_listed {streams : List (Array ℂ)} {index : ℕ} {stream : Array ℂ}
    (reference : Array ℂ) (listed : streams[index]? = some stream) :
    (rotators (reference :: streams))[index + 1]? = some (rotator reference stream) := by
  rw [rotators, List.getElem?_cons_succ, List.getElem?_map, listed, Option.map_some]

/-- A factor that undoes any constant phase of a stream, and is the rotator of the stream among any
others and however loud each sample is. -/
structure Undoes (reference stream : Array ℂ) (factor : ℂ) : Prop where
  turned {turn : ℂ} {gain : ℕ → ℝ} (faded : Faded turn gain reference stream) :
    factor = starRingEnd ℂ turn ∧
      ∀ index (_ : index < reference.size) (_ : index < stream.size),
        factor * stream[index] = gain index * reference[index]
  alone {gain other : ℕ → ℝ} (positive : ∀ index, 0 < gain index) (too : ∀ index, 0 < other index)
    {streams : List (Array ℂ)} {index : ℕ}
    (listed : streams[index]? = some (rescaled other stream)) :
    (rotators (rescaled gain reference :: streams))[index + 1]? = some factor

theorem undoes_rotator (reference stream : Array ℂ) :
    Undoes reference stream (rotator reference stream) where
  turned faded := ⟨rotator_faded faded, fun _ inReference inStream =>
    faded.levels inReference inStream⟩
  alone positive too _ _ listed := by
    rw [rotators_listed _ listed, rotator_rescaled positive too]

/-- Any buffers have a rotator of magnitude one each, the first of them is one, and the others undo
the phases of their streams. -/
theorem rotators_undo (buffers : List (Array ℂ)) :
    (rotators buffers).length = buffers.length ∧
    (∀ factor ∈ rotators buffers, ‖factor‖ = 1) ∧
    ∀ (reference : Array ℂ) (streams : List (Array ℂ)), buffers = reference :: streams →
      (rotators buffers)[0]? = some 1 ∧
      ∀ (index : ℕ) (stream : Array ℂ), streams[index]? = some stream →
        ∃ factor, (rotators buffers)[index + 1]? = some factor ∧
          Undoes reference stream factor := by
  cases buffers with
  | nil => simp [rotators]
  | cons reference streams =>
      refine ⟨by simp [rotators], by simp [rotators, norm_rotator], ?_⟩
      rintro _ _ ⟨rfl, rfl⟩
      refine ⟨rfl, fun index stream listed => ?_⟩
      exact ⟨_, rotators_listed reference listed, undoes_rotator reference stream⟩

theorem rotators_undo_opposite :
    Faded (-1) (fun index => if index = 0 then 2 else 0) #[1, Complex.I] #[-2, 0] ∧
      (rotators [#[1, Complex.I], #[Complex.I, 1], #[-2, 0]])[2]? = some (-1 : ℂ) := by
  have faded : Faded (-1) (fun index => if index = 0 then 2 else 0) #[1, Complex.I] #[-2, 0] := by
    refine ⟨by simp, fun index => ?_, fun index inside _ => ?_, 0, by simp, by simp, by simp⟩
    · split <;> norm_num
    · have bound : index < 2 := inside
      interval_cases index <;> simp
  obtain ⟨_, _, each⟩ := rotators_undo [#[1, Complex.I], #[Complex.I, 1], #[-2, 0]]
  obtain ⟨factor, listed, undoes⟩ := (each _ _ rfl).2 1 #[-2, 0] rfl
  refine ⟨faded, listed.trans ?_⟩
  rw [(undoes.turned faded).1, map_neg, map_one]

end Wideband.Lock
