import Wideband.Proofs.Lock.Convergence
import Wideband.Proofs.Lock.Phasors

namespace Wideband.Lock

open Replay

theorem rotator_aligned {a b : ℂ} (left : ‖a‖ = 1) (right : ‖b‖ = 1) {samples : List ℂ}
    (loud : ∃ sample ∈ samples, sample ≠ 0) :
    rotator (samples.map (· * a)).toArray (samples.map (· * b)).toArray =
      a * starRingEnd ℂ b := by
  have whole : starRingEnd ℂ a * a = 1 := by
    rw [Complex.conj_mul', left, Complex.ofReal_one, one_pow]
  have faded : Faded (b * starRingEnd ℂ a) (fun _ => 1) (samples.map (· * a)).toArray
      (samples.map (· * b)).toArray := by
    refine ⟨?_, fun _ => zero_le_one, fun index inside _ => ?_, ?_⟩
    · rw [norm_mul, RCLike.norm_conj, left, right, mul_one]
    · have inside : index < samples.length := by simpa using inside
      simp only [List.getElem_toArray, List.getElem_map, Complex.ofReal_one]
      linear_combination (-(samples[index] * b)) * whole
    · obtain ⟨sample, member, some⟩ := loud
      obtain ⟨index, inside, rfl⟩ := List.getElem_of_mem member
      have turned : a ≠ 0 := by
        rw [← norm_ne_zero_iff, left]
        exact one_ne_zero
      exact ⟨index, by simpa using inside, by simpa using inside, by simpa using ⟨some, turned⟩⟩
  rw [rotator_faded faded, map_mul, Complex.conj_conj, mul_comm]

section Signal

variable {signal : Array ℂ}

def around (signal : Array ℂ) (place : ℕ) : List ℂ :=
  List.ofFn fun index : Fin signal.size => entry signal ((place + index) % signal.size)

theorem stretch_content (signal : Array ℂ) (factor : ℂ) (place : ℕ) :
    Source.stretch (content signal factor) place signal.size =
      ((around signal place).map (· * factor)).toArray := by
  rw [around, List.map_ofFn, List.toArray_ofFn]
  rfl

theorem around_congr {place other : ℕ} (same : (signal.size : ℤ) ∣ (other : ℤ) - place) :
    around signal other = around signal place := by
  have equal : place ≡ other [MOD signal.size] := Nat.modEq_iff_dvd.mpr same
  refine congrArg List.ofFn (funext fun index => ?_)
  rw [(equal.add_right _ : (place + index) % signal.size = (other + index) % signal.size)]

theorem exists_loud (distinct : Distinct signal) (long : 2 ≤ signal.size) (place : ℕ) :
    ∃ sample ∈ around signal place, sample ≠ 0 := by
  obtain ⟨n, inside, power⟩ := distinct.loud long
  have room : 0 < signal.size := Nat.zero_lt_of_lt inside
  refine ⟨entry signal n, List.mem_ofFn.mpr
    ⟨⟨(n + (signal.size - place % signal.size)) % signal.size, Nat.mod_lt _ room⟩, ?_⟩, power⟩
  have order : place + (n + (signal.size - place % signal.size)) =
      place + n + (signal.size - place % signal.size) := (Nat.add_assoc _ _ _).symm
  rw [Nat.add_mod_mod, order, mod_around room place inside]

end Signal

variable {ρ π ι : Type} [Source ρ ℂ] {planner : Planner ℂ π} {signal : Array ℂ}
  {settings : Settings} {stream : ι → ℕ → ρ} {factor : ι → ℂ}

theorem allSamples_complex {α : Type} (samples : α → Array ℂ) (streams : List α) :
    allSamples (streams.map fun stream => Buffer.complex (samples stream)) =
      .ok (streams.map samples) := by
  induction streams with
  | nil => rfl
  | cons stream streams ih =>
      rw [List.map_cons, allSamples, ih]
      rfl

/-- The rotator of a stream in step is the quotient of the factors of the first stream and its
own. -/
theorem Scene.readRotators (scene : Scene planner signal settings stream factor)
    {first : Standing ι} {rest : List (Standing ι)}
    (level : ∀ standing ∈ rest, (signal.size : ℤ) ∣ (standing.place : ℤ) - first.place) :
    readRotators ((first :: rest).map fun standing => stream standing.item standing.place)
        settings.length false =
      ⟨.ok (1 :: rest.map fun standing => factor first.item * starRingEnd ℂ (factor standing.item)),
        ((first :: rest).map (Standing.read signal.size)).map fun standing =>
          stream standing.item standing.place, false⟩ := by
  let sources := (first :: rest).map fun standing => stream standing.item standing.place
  let buffers : List (Buffer ℂ) := sources.map fun _ => .silent .complex settings.length
  have long : settings.length ≠ 0 := by
    have long := scene.long
    rw [scene.length]
    omega
  have sizes : ∀ buffer ∈ buffers, ∃ out : Array ℂ,
      buffer = .complex out ∧ out.size = signal.size := by
    intro buffer member
    obtain ⟨_, _, rfl⟩ := List.mem_map.mp member
    exact ⟨Array.replicate settings.length 0, rfl, by rw [Array.size_replicate, scene.length]⟩
  have gathered : Source.fillAll .phasing sources buffers =
      ⟨.ok (), ((first :: rest).map (Standing.read signal.size)).map fun standing =>
        stream standing.item standing.place, played signal factor (first :: rest), .none⟩ := by
    have filled := Source.fillAll_plays scene.plays .phasing
      ((first :: rest).map fun standing => (standing.item, standing.place))
      (by simp [buffers, sources]) sizes
    simpa [sources, played, Standing.read, Function.comp_def] using filled
  have samples : allSamples (played signal factor (first :: rest)) =
      .ok ((first :: rest).map fun standing =>
        Source.stretch (content signal (factor standing.item)) standing.place signal.size) :=
    allSamples_complex _ _
  have turned : rotators ((first :: rest).map fun standing =>
        Source.stretch (content signal (factor standing.item)) standing.place signal.size) =
      1 :: rest.map fun standing =>
        factor first.item * starRingEnd ℂ (factor standing.item) := by
    rw [List.map_cons, rotators, List.map_map]
    refine congrArg (1 :: ·) (List.map_congr_left fun standing member => ?_)
    rw [Function.comp_apply, stretch_content, stretch_content, around_congr (level standing member)]
    exact rotator_aligned (scene.unit _) (scene.unit _) (exists_loud scene.distinct scene.long _)
  change Lock.readRotators sources settings.length false = _
  rw [Lock.readRotators, if_neg long]
  simp only [buffers] at gathered
  simp only [gathered, samples, Except.map, turned]
  rfl

end Wideband.Lock
