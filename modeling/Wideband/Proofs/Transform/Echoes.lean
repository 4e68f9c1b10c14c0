import Wideband.Proofs.Transform.Matching

namespace Wideband

open Complex Replay

/-- The offset nearest to zero that a shift around a block may be taken for; of the two halves of a
turn the positive one. -/
structure Nearest (length : ℕ) (shift offset : ℤ) : Prop where
  congruent : offset ≡ shift [ZMOD length]
  above : -length < 2 * offset
  below : 2 * offset ≤ length

section Offsets

variable {length : ℕ} {shift offset other : ℤ}

theorem Nearest.unique (nearest : Nearest length shift offset) (same : Nearest length shift other) :
    other = offset := by
  have apart : (length : ℤ) ∣ other - offset :=
    (nearest.congruent.trans same.congruent.symm).dvd
  have low := nearest.below
  have high := nearest.above
  have otherLow := same.below
  have otherHigh := same.above
  have small : |other - offset| < length := by
    rw [abs_lt]
    omega
  have zero := Int.eq_zero_of_abs_lt_dvd apart small
  omega

theorem nearest_signedOffset {index : ℕ} (inside : index < length) :
    Nearest length index (signedOffset index length) where
  congruent := signedOffset_modEq index length
  above := by
    unfold signedOffset
    split <;> omega
  below := by
    unfold signedOffset
    split <;> omega

theorem nearest_lead (room : 0 < length) (place other : ℕ) :
    Nearest length ((other : ℤ) - place) (lead length place other) := by
  have above := Int.emod_nonneg ((other : ℤ) - place) (by omega : (length : ℤ) ≠ 0)
  have below := Int.emod_lt_of_pos ((other : ℤ) - place) (by omega : (0 : ℤ) < length)
  have inside : (((other : ℤ) - place) % length).toNat < length := by omega
  exact { nearest_signedOffset inside with
    congruent := (Int.modEq_iff_dvd.mpr (dvd_lead room place other)).symm }

end Offsets

structure Echo (reference stream : Array ℂ) (factor : ℂ) (shift : ℤ) : Prop where
  audible : factor ≠ 0
  samples : ∀ n < reference.size,
    entry stream n = factor * entry reference ((n + shift) % reference.size).toNat

section Echoes

variable {reference stream : Array ℂ} {factor : ℂ} {shift : ℤ}

theorem stretch_self (reference : Array ℂ) :
    Source.stretch (content reference 1) 0 reference.size = reference := by
  refine Array.ext (Source.size_stretch _ _ _) fun n _ inside => ?_
  simp [Source.stretch, content, Nat.mod_eq_of_lt inside, entry_of_lt inside]

theorem Echo.stretch (echo : Echo reference stream factor shift) (room : 0 < reference.size)
    (size : stream.size = reference.size) :
    Source.stretch (content reference factor) (shift % reference.size).toNat reference.size =
      stream := by
  refine Array.ext (by rw [Source.size_stretch, size]) fun n left right => ?_
  have inside : n < reference.size := size ▸ right
  have above := Int.emod_nonneg shift (by omega : (reference.size : ℤ) ≠ 0)
  have around : ((shift % reference.size).toNat + n) % reference.size =
      ((n + shift) % reference.size).toNat := by
    zify
    rw [Int.toNat_of_nonneg above, Int.toNat_of_nonneg (Int.emod_nonneg _ (by omega)),
      Int.emod_add_emod, add_comm]
  rw [← entry_of_lt left, ← entry_of_lt right, entry_stretch _ _ inside, content, around,
    echo.samples n inside, mul_comm]

end Echoes

namespace Correlator

variable {π : Type} {planner : Planner ℂ π} {length index : ℕ} {correlator : Correlator ℂ π}
  {reference stream : Array ℂ}

/-- A correlator that was prepared for blocks of one length, after any number of lags, also of blocks
that it has refused. -/
inductive Serves (planner : Planner ℂ π) (length : ℕ) : Correlator ℂ π → Prop where
  | fresh {correlator : Correlator ℂ π} (prepared : prepare planner length = .ok correlator) :
      Serves planner length correlator
  | lag {correlator : Correlator ℂ π} (earlier : Serves planner length correlator)
      (reference stream : Array ℂ) (index : ℕ) :
      Serves planner length (correlator.lag planner reference stream index).correlator

structure Measures (reference stream : Array ℂ) (index : ℕ) (lag : Lag ℂ π) : Prop where
  size : lag.correlator.output.size = reference.size
  output : ∀ d < reference.size, entry lag.correlator.output d = correlation reference stream d
  silent : lag.result = .error (.noPeak index) ↔
    ∀ d < reference.size, correlation reference stream d = 0
  /-- Otherwise the first index at which the blocks match best is told. -/
  peak : (∃ d < reference.size, correlation reference stream d ≠ 0) →
    ∃ top < reference.size, lag.result = .ok (signedOffset top reference.size) ∧
      (∀ d < reference.size,
        normSq (correlation reference stream d) ≤ normSq (correlation reference stream top)) ∧
      ∀ d < top, normSq (correlation reference stream d) < normSq (correlation reference stream top)
  echo : ∀ factor shift, (∃ n < reference.size, entry reference n ≠ 0) → Distinct reference →
    Echo reference stream factor shift →
      ∃ offset, lag.result = .ok offset ∧ Nearest reference.size shift offset ∧
        ∀ other, Nearest reference.size shift other → other = offset

theorem Ready.lag_refused (ready : correlator.Ready planner length)
    (misfit : ¬(reference.size = length ∧ stream.size = length)) :
    (correlator.lag planner reference stream index).correlator = correlator := by
  have refused : ∃ cause, checkLengths correlator.convolver.length
      [correlator.output.size, reference.size, stream.size] = .error cause := by
    refine ⟨_, if_neg ?_⟩
    simpa [ready.convolver.fixed, ready.output] using misfit
  obtain ⟨cause, refused⟩ := refused
  simp [Correlator.lag, Convolver.run, refused]

theorem Serves.ready (exact : planner.IsFourier) (reliable : planner.Reliable) (room : 0 < length)
    (serves : Serves planner length correlator) : correlator.Ready planner length := by
  induction serves with
  | fresh prepared =>
      obtain ⟨fresh, same, ready⟩ := exists_prepare reliable room
      cases prepared.symm.trans same
      exact ready
  | lag earlier reference stream index ready =>
      by_cases fits : reference.size = length ∧ stream.size = length
      · obtain ⟨after, measured, later, _⟩ := ready.measure exact reliable room fits.1 fits.2 index
        rw [measured]
        exact later
      · rw [ready.lag_refused fits]
        exact ready

theorem Ready.lag_echo (ready : correlator.Ready planner reference.size) (exact : planner.IsFourier)
    (reliable : planner.Reliable) (loud : ∃ n < reference.size, entry reference n ≠ 0)
    (distinct : Distinct reference) (size : stream.size = reference.size) {factor : ℂ} {shift : ℤ}
    (echo : Echo reference stream factor shift) :
    ∃ offset, (correlator.lag planner reference stream index).result = .ok offset ∧
      Nearest reference.size shift offset := by
  have room : 0 < reference.size := loud.elim fun n power => Nat.zero_lt_of_lt power.1
  obtain ⟨_, lag, _⟩ := ready.lag exact reliable distinct loud one_ne_zero echo.audible 0
    (shift % reference.size).toNat index
  rw [stretch_self, echo.stretch room size] at lag
  have above := Int.emod_nonneg shift (by omega : (reference.size : ℤ) ≠ 0)
  have near := nearest_lead room 0 (shift % reference.size).toNat
  rw [Int.toNat_of_nonneg above, Nat.cast_zero, sub_zero] at near
  exact ⟨_, by rw [lag], { near with congruent := near.congruent.trans (Int.mod_modEq _ _) }⟩

theorem Ready.measures (ready : correlator.Ready planner length) (exact : planner.IsFourier)
    (reliable : planner.Reliable) (room : 0 < length) (left : reference.size = length)
    (right : stream.size = length) :
    Measures reference stream index (correlator.lag planner reference stream index) := by
  subst left
  obtain ⟨after, measured, later, output⟩ := ready.measure exact reliable room rfl right index
  have size := later.output
  have silent : Wideband.peak after.output = none ↔
      ∀ d < reference.size, correlation reference stream d = 0 := by
    rw [peak_eq_none_iff, size]
    exact forall₂_congr fun d inside => by rw [output d inside]
  have echoed : ∀ factor shift, (∃ n < reference.size, entry reference n ≠ 0) →
      Distinct reference → Echo reference stream factor shift →
      ∃ offset, (correlator.lag planner reference stream index).result = .ok offset ∧
        Nearest reference.size shift offset ∧
        ∀ other, Nearest reference.size shift other → other = offset := by
    intro factor shift loud distinct echo
    obtain ⟨offset, found, nearest⟩ := ready.lag_echo exact reliable loud distinct right echo
    exact ⟨offset, found, nearest, fun other same => nearest.unique same⟩
  rw [measured] at echoed ⊢
  refine { size, output, silent := ?_, peak := ?_, echo := echoed }
  · rw [← silent]
    cases Wideband.peak after.output <;> simp
  · rintro ⟨d, inside, loud⟩
    cases located : Wideband.peak after.output with
    | none => exact absurd (silent.mp located d inside) loud
    | some top =>
        have isPeak := peak_eq_some_iff.mp located
        have within : top < reference.size := size ▸ isPeak.inside
        refine ⟨top, within, rfl, fun d inside => ?_, fun d before => ?_⟩
        · rw [← output d inside, ← output top within]
          exact isPeak.highest d (size ▸ inside)
        · rw [← output d (before.trans within), ← output top within]
          exact isPeak.first d before

/-- Correlators can be prepared for every length, and then measure what blocks of that length have in
common, whatever they have measured before. -/
theorem lag_measures (exact : planner.IsFourier) (reliable : planner.Reliable)
    (room : 0 < length) :
    (∃ fresh, prepare planner length = .ok fresh) ∧
      ∀ correlator, Serves planner length correlator →
        ∀ reference stream : Array ℂ, reference.size = length → stream.size = length →
          ∀ index, Measures reference stream index
            (correlator.lag planner reference stream index) := by
  obtain ⟨fresh, prepared, _⟩ := exists_prepare reliable room
  refine ⟨⟨fresh, prepared⟩, fun correlator serves reference stream left right index => ?_⟩
  exact (serves.ready exact reliable room).measures exact reliable room left right

theorem lag_measures_pulse :
    ∃ fresh : Correlator ℂ Plan, prepare (Planner.ofKernel Dft.transform) 3 = .ok fresh ∧
      (fresh.lag (Planner.ofKernel Dft.transform) #[1, 0, 0] #[0, 2 * I, 0] 1).result =
        .ok (-1) := by
  obtain ⟨⟨fresh, prepared⟩, measures⟩ := lag_measures Planner.isFourier_ofKernel
    (Planner.reliable_ofKernel Dft.transform) (by decide : 0 < 3)
  have measured := measures fresh (.fresh prepared) #[1, 0, 0] #[0, 2 * I, 0] rfl rfl 1
  have distinct : Distinct #[1, 0, 0] := by
    rintro shift positive inside ⟨factor, multiple⟩
    change shift < 3 at inside
    obtain rfl | rfl : shift = 1 ∨ shift = 2 := by omega
    · simpa [entry] using multiple 2 (by decide)
    · simpa [entry] using multiple 1 (by decide)
  have echo : Echo #[1, 0, 0] #[0, 2 * I, 0] (2 * I) (-1) := by
    refine ⟨mul_ne_zero two_ne_zero I_ne_zero, fun n inside => ?_⟩
    change n < 3 at inside
    obtain rfl | rfl | rfl : n = 0 ∨ n = 1 ∨ n = 2 := by omega
    all_goals simp [entry]
  obtain ⟨offset, found, _, unique⟩ :=
    measured.echo _ _ ⟨0, by decide, by simp [entry]⟩ distinct echo
  have nearest : Nearest 3 (-1) (-1) := ⟨Int.ModEq.refl _, by decide, by decide⟩
  exact ⟨fresh, prepared, by rw [found, unique (-1) nearest]⟩

end Correlator

end Wideband
