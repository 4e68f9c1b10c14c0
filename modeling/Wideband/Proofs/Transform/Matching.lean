import Wideband.Proofs.Simulation.Replaying
import Wideband.Proofs.Transform.Correlation
import Wideband.Proofs.Transform.Lag
import Wideband.Proofs.Transform.Peaks

namespace Wideband

open Finset

/-!
Where a signal matches itself. A signal that is no multiple of itself after any shift correlates
most with itself where the two are in step (`Distinct.normSq_lt`), so a correlation of two stretches
of it has its peak at the distance of their places (`peak_product`).
-/

theorem mod_around {length : ℕ} (room : 0 < length) (start : ℕ) {n : ℕ} (inside : n < length) :
    (start + n + (length - start % length)) % length = n := by
  have split := Nat.div_add_mod start length
  have below := Nat.mod_lt start room
  have turns : start + n + (length - start % length) = n + length * (start / length + 1) := by
    rw [Nat.mul_succ]
    omega
  rw [turns, Nat.add_mul_mod_self_left, Nat.mod_eq_of_lt inside]

theorem sum_around {M : Type} [AddCommMonoid M] {length : ℕ} (room : 0 < length) (terms : ℕ → M)
    (start : ℕ) :
    ∑ n ∈ range length, terms ((start + n) % length) = ∑ n ∈ range length, terms n := by
  refine sum_nbij' (fun n => (start + n) % length)
    (fun n => (n + (length - start % length)) % length) ?_ ?_ ?_ ?_ fun _ _ => rfl
  · exact fun n _ => mem_range.mpr (Nat.mod_lt _ room)
  · exact fun n _ => mem_range.mpr (Nat.mod_lt _ room)
  · intro n member
    rw [Nat.mod_add_mod, mod_around room start (mem_range.mp member)]
  · intro n member
    have order : start + (n + (length - start % length)) =
        start + n + (length - start % length) := (Nat.add_assoc _ _ _).symm
    rw [Nat.add_mod_mod, order, mod_around room start (mem_range.mp member)]

/-- No shift but a whole turn makes the signal a multiple of itself. -/
def Distinct (signal : Array ℂ) : Prop :=
  ∀ shift, 0 < shift → shift < signal.size →
    ¬∃ factor : ℂ, ∀ n < signal.size,
      entry signal ((n + shift) % signal.size) = factor * entry signal n

theorem distinct_pulse : Distinct #[1, 0] := by
  rintro shift positive inside ⟨factor, multiple⟩
  have one : shift = 1 := by
    change shift < 2 at inside
    omega
  have last := multiple 1 (by decide)
  simp [one, entry] at last

section Signal

variable {signal : Array ℂ}

noncomputable def shifted (signal : Array ℂ) (shift : ℕ) : EuclideanSpace ℂ (Fin signal.size) :=
  WithLp.toLp _ fun n => entry signal ((n + shift) % signal.size)

theorem inner_shifted (signal : Array ℂ) (shift : ℕ) :
    inner ℂ (shifted signal 0) (shifted signal shift) = correlation signal signal shift := by
  rw [PiLp.inner_apply, correlation, ← Fin.sum_univ_eq_sum_range]
  refine Fintype.sum_congr _ _ fun n => ?_
  simp [shifted, Nat.mod_eq_of_lt n.isLt]

theorem norm_shifted (room : 0 < signal.size) (shift : ℕ) :
    ‖shifted signal shift‖ = ‖shifted signal 0‖ := by
  have around : ∀ start, ‖shifted signal start‖ ^ 2 =
      ∑ n ∈ range signal.size, ‖entry signal n‖ ^ 2 := by
    intro start
    rw [EuclideanSpace.norm_sq_eq, ← sum_around room (fun n => ‖entry signal n‖ ^ 2) start,
      ← Fin.sum_univ_eq_sum_range fun n => ‖entry signal ((start + n) % signal.size)‖ ^ 2]
    refine Fintype.sum_congr _ _ fun n => ?_
    simp [shifted, Nat.add_comm]
  rw [← sq_eq_sq₀ (norm_nonneg _) (norm_nonneg _), around, around]

theorem shifted_ne_zero (loud : ∃ n < signal.size, entry signal n ≠ 0) : shifted signal 0 ≠ 0 := by
  obtain ⟨n, inside, power⟩ := loud
  intro silent
  have part := congrArg (fun vector => vector ⟨n, inside⟩) silent
  simp only [shifted, Nat.add_zero, Nat.mod_eq_of_lt inside, PiLp.zero_apply] at part
  exact power part

theorem Distinct.loud (distinct : Distinct signal) (long : 2 ≤ signal.size) :
    ∃ n < signal.size, entry signal n ≠ 0 := by
  by_contra silent
  push Not at silent
  refine distinct 1 (by omega) (by omega) ⟨0, fun n inside => ?_⟩
  rw [silent n inside, silent _ (Nat.mod_lt _ (by omega)), mul_zero]

theorem correlation_zero (signal : Array ℂ) :
    correlation signal signal 0 = (‖shifted signal 0‖ : ℂ) ^ 2 := by
  rw [← inner_shifted, inner_self_eq_norm_sq_to_K]
  rfl

theorem correlation_zero_ne_zero (loud : ∃ n < signal.size, entry signal n ≠ 0) :
    correlation signal signal 0 ≠ 0 := by
  have size := norm_ne_zero_iff.mpr (shifted_ne_zero loud)
  rw [correlation_zero]
  exact pow_ne_zero _ (by exact_mod_cast size)

theorem Distinct.normSq_lt (distinct : Distinct signal)
    (loud : ∃ n < signal.size, entry signal n ≠ 0) {shift : ℕ} (apart : shift % signal.size ≠ 0) :
    Complex.normSq (correlation signal signal shift) <
      Complex.normSq (correlation signal signal 0) := by
  have room : 0 < signal.size := loud.elim fun n power => Nat.zero_lt_of_lt power.1
  have power := shifted_ne_zero loud
  have same := norm_shifted room shift
  -- Equality in Cauchy-Schwarz would make the shifted signal a multiple of the signal.
  have less : ‖correlation signal signal shift‖ < ‖shifted signal 0‖ * ‖shifted signal shift‖ := by
    rw [← inner_shifted]
    refine lt_of_le_of_ne (norm_inner_le_norm _ _) fun equal => ?_
    have other : shifted signal shift ≠ 0 := by
      rw [← norm_ne_zero_iff, same]
      exact norm_ne_zero_iff.mpr power
    obtain ⟨factor, _, multiple⟩ := (norm_inner_eq_norm_iff power other).mp equal
    refine distinct (shift % signal.size) (Nat.pos_of_ne_zero apart) (Nat.mod_lt _ room)
      ⟨factor, fun n inside => ?_⟩
    have part := congrArg (fun vector => vector ⟨n, inside⟩) multiple
    simpa [shifted, Nat.mod_eq_of_lt inside] using part
  have whole : ‖correlation signal signal 0‖ = ‖shifted signal 0‖ * ‖shifted signal shift‖ := by
    rw [correlation_zero, same, norm_pow, Complex.norm_real, norm_norm, sq]
  rw [Complex.normSq_eq_norm_sq, Complex.normSq_eq_norm_sq, whole]
  exact pow_lt_pow_left₀ less (norm_nonneg _) (by decide)

end Signal

/-- By how many samples a stream at the second place leads one at the first, both going around a
signal of the given length. -/
def lead (length place other : ℕ) : ℤ :=
  signedOffset (((other : ℤ) - place) % length).toNat length

section Lead

variable {length : ℕ}

theorem dvd_lead (room : 0 < length) (place other : ℕ) :
    (length : ℤ) ∣ lead length place other - ((other : ℤ) - place) := by
  have above := Int.emod_nonneg ((other : ℤ) - place) (by omega : (length : ℤ) ≠ 0)
  have folded := signedOffset_modEq (((other : ℤ) - place) % length).toNat length
  rw [Int.toNat_of_nonneg above] at folded
  exact (folded.trans (Int.mod_modEq _ _)).symm.dvd

theorem lead_eq_zero {place other : ℕ} (same : (length : ℤ) ∣ (other : ℤ) - place) :
    lead length place other = 0 := by
  rw [lead, Int.emod_eq_zero_of_dvd same]
  simp [signedOffset]

@[simp] theorem lead_self (length place : ℕ) : lead length place place = 0 :=
  lead_eq_zero (by simp)

@[simp] theorem lead_add (length place other count : ℕ) :
    lead length (place + count) (other + count) = lead length place other := by
  have same : ((other + count : ℕ) : ℤ) - (place + count : ℕ) = (other : ℤ) - place := by
    push_cast
    ring
  rw [lead, same, lead]

end Lead

section Stretches

open Replay

variable {signal : Array ℂ} {a b : ℂ} {place other : ℕ}

theorem entry_stretch (content : ℕ → ℂ) (position : ℕ) {count index : ℕ} (inside : index < count) :
    entry (Source.stretch content position count) index = content (position + index) := by
  simp [Source.stretch, inside]

theorem correlation_stretch (room : 0 < signal.size) (lag : ℕ) :
    correlation (Source.stretch (content signal a) place signal.size)
        (Source.stretch (content signal b) other signal.size) lag =
      a * starRingEnd ℂ b *
        correlation signal signal (place + lag + (signal.size - other % signal.size)) := by
  let away := place + lag + (signal.size - other % signal.size)
  let terms : ℕ → ℂ := fun m =>
    a * starRingEnd ℂ b * (entry signal ((m + away) % signal.size) * starRingEnd ℂ (entry signal m))
  have split := Nat.div_add_mod other signal.size
  have below := Nat.mod_lt other room
  rw [correlation, Source.size_stretch, correlation, mul_sum]
  refine Eq.trans (sum_congr rfl fun n member => ?_) (sum_around room terms other)
  have inside := mem_range.mp member
  have turns : other + n + away = place + (n + lag) + signal.size * (other / signal.size + 1) := by
    rw [Nat.mul_succ]
    omega
  have around : ((other + n) % signal.size + away) % signal.size =
      (place + (n + lag) % signal.size) % signal.size := by
    rw [Nat.mod_add_mod, turns, Nat.add_mul_mod_self_left, Nat.add_mod_mod]
  rw [entry_stretch _ _ (Nat.mod_lt _ room), entry_stretch _ _ inside, content, content]
  simp only [terms, around, map_mul]
  ring

theorem place_add_lag (room : 0 < signal.size) {lag : ℕ} (inside : lag < signal.size) :
    (place + lag + (signal.size - other % signal.size)) % signal.size = 0 ↔
      lag = (((other : ℤ) - place) % signal.size).toNat := by
  have whole : (signal.size : ℤ) ≠ 0 := by exact_mod_cast Nat.ne_of_gt room
  have above := Int.emod_nonneg ((other : ℤ) - place) whole
  have below := Nat.mod_lt other room
  have own : (lag : ℤ) % signal.size = lag :=
    Int.emod_eq_of_lt (Int.natCast_nonneg _) (by exact_mod_cast inside)
  have away : ((place + lag + (signal.size - other % signal.size) : ℕ) : ℤ) =
      (lag - ((other : ℤ) - place)) + signal.size * ((other : ℤ) / signal.size + 1) := by
    have split := Int.mul_ediv_add_emod other signal.size
    push_cast [Nat.cast_sub below.le]
    linear_combination -split
  have congruent : (place + lag + (signal.size - other % signal.size)) % signal.size = 0 ↔
      (signal.size : ℤ) ∣ lag - ((other : ℤ) - place) := by
    rw [← Nat.dvd_iff_mod_eq_zero, ← Int.natCast_dvd_natCast, away]
    exact (Int.dvd_add_left (Dvd.intro _ rfl))
  rw [congruent, Int.dvd_iff_emod_eq_zero, ← Int.emod_eq_emod_iff_emod_sub_eq_zero, own]
  omega

theorem peak_product (distinct : Distinct signal) (loud : ∃ n < signal.size, entry signal n ≠ 0)
    (left : a ≠ 0) (right : b ≠ 0) {product : Array ℂ} (size : product.size = signal.size)
    (entries : ∀ lag < signal.size, entry product lag =
      correlation (Source.stretch (content signal a) place signal.size)
        (Source.stretch (content signal b) other signal.size) lag) :
    peak product = some (((other : ℤ) - place) % signal.size).toNat := by
  have room : 0 < signal.size := loud.elim fun n power => Nat.zero_lt_of_lt power.1
  have inside : (((other : ℤ) - place) % signal.size).toNat < signal.size := by
    have above := Int.emod_nonneg ((other : ℤ) - place) (by omega : (signal.size : ℤ) ≠ 0)
    have below := Int.emod_lt_of_pos ((other : ℤ) - place)
      (by exact_mod_cast room : (0 : ℤ) < signal.size)
    omega
  have factor : 0 < Complex.normSq (a * starRingEnd ℂ b) :=
    Complex.normSq_pos.mpr (mul_ne_zero left ((map_ne_zero _).mpr right))
  have matched : ∀ lag < signal.size, entry product lag = a * starRingEnd ℂ b *
      correlation signal signal (place + lag + (signal.size - other % signal.size)) :=
    fun lag bound => (entries lag bound).trans (correlation_stretch room lag)
  have periodic : ∀ shift, correlation signal signal (shift % signal.size) =
      correlation signal signal shift := by
    intro shift
    refine sum_congr rfl fun n _ => ?_
    rw [Nat.add_mod_mod]
  have highest : entry product (((other : ℤ) - place) % signal.size).toNat =
      a * starRingEnd ℂ b * correlation signal signal 0 := by
    rw [matched _ inside, ← periodic, (place_add_lag room inside).mpr rfl]
  refine peak_eq_of_lt (size ▸ inside) ?_ fun lag bound different => ?_
  · rw [highest]
    exact mul_ne_zero (Complex.normSq_pos.mp factor) (correlation_zero_ne_zero loud)
  · rw [highest, matched lag (size ▸ bound), Complex.normSq_mul (a * starRingEnd ℂ b),
      Complex.normSq_mul (a * starRingEnd ℂ b)]
    refine mul_lt_mul_of_pos_left (distinct.normSq_lt loud fun zero => ?_) factor
    exact different ((place_add_lag room (size ▸ bound)).mp zero)

end Stretches

namespace Correlator

variable {π : Type} {planner : Planner ℂ π} {length : ℕ}

structure Ready (planner : Planner ℂ π) (length : ℕ) (correlator : Correlator ℂ π) : Prop where
  convolver : correlator.convolver.Ready planner length
  output : correlator.output.size = length

theorem exists_prepare (reliable : planner.Reliable) (room : 0 < length) :
    ∃ correlator, prepare planner length = .ok correlator ∧ correlator.Ready planner length := by
  obtain ⟨convolver, prepared, ready⟩ := Convolver.exists_prepare reliable room
  refine ⟨⟨convolver, Array.replicate length 0⟩, ?_, ready, Array.size_replicate⟩
  simp only [prepare, prepared, bind, Except.bind]
  rfl

theorem Ready.measure {correlator : Correlator ℂ π} (ready : correlator.Ready planner length)
    (exact : planner.IsFourier) (reliable : planner.Reliable) (room : 0 < length)
    {reference stream : Array ℂ} (left : reference.size = length) (right : stream.size = length)
    (index : ℕ) :
    ∃ after : Correlator ℂ π,
      correlator.lag planner reference stream index =
        ⟨(peak after.output).elim (.error (.noPeak index)) fun found =>
          .ok (signedOffset found length), after, reference, stream⟩ ∧
      after.Ready planner length ∧
      ∀ lag < length, entry after.output lag = correlation reference stream lag := by
  obtain ⟨convolver, product, ran, later, size, entries⟩ :=
    ready.convolver.run exact reliable room ready.output left right
  refine ⟨⟨convolver, product⟩, ?_, ⟨later, size⟩, entries⟩
  simp only [Correlator.lag, ran, size]
  cases peak product with
  | none => rfl
  | some found => rfl

/-- The lag between two stretches of one signal is what the second one leads by. -/
theorem Ready.lag {correlator : Correlator ℂ π} {signal : Array ℂ}
    (ready : correlator.Ready planner signal.size) (exact : planner.IsFourier)
    (reliable : planner.Reliable) (distinct : Distinct signal)
    (loud : ∃ n < signal.size, entry signal n ≠ 0) {a b : ℂ} (left : a ≠ 0) (right : b ≠ 0)
    (place other index : ℕ) :
    ∃ after : Correlator ℂ π,
      correlator.lag planner (Source.stretch (Replay.content signal a) place signal.size)
          (Source.stretch (Replay.content signal b) other signal.size) index =
        ⟨.ok (lead signal.size place other), after,
          Source.stretch (Replay.content signal a) place signal.size,
          Source.stretch (Replay.content signal b) other signal.size⟩ ∧
      after.Ready planner signal.size := by
  have room : 0 < signal.size := loud.elim fun n power => Nat.zero_lt_of_lt power.1
  obtain ⟨after, measured, later, entries⟩ := ready.measure exact reliable room
    (Source.size_stretch (Replay.content signal a) place signal.size)
    (Source.size_stretch (Replay.content signal b) other signal.size) index
  rw [peak_product distinct loud left right later.output entries] at measured
  exact ⟨after, measured, later⟩

theorem Ready.close {correlator : Correlator ℂ π} (ready : correlator.Ready planner length)
    (reliable : planner.Reliable) : (correlator.close planner).1 = .ok () := by
  simp only [Correlator.close, ready.convolver.fit.close reliable]

end Correlator

end Wideband
