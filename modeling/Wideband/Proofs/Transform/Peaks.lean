import Wideband.Proofs.Sample.Exact
import Wideband.Proofs.Transform.Dft
import Wideband.Transform.Correlator

namespace Wideband

open Complex

/-- The first of the samples of greatest power, which is not zero. -/
structure IsPeak (samples : Array ℂ) (top : ℕ) : Prop where
  inside : top < samples.size
  loud : entry samples top ≠ 0
  highest : ∀ index < samples.size, normSq (entry samples index) ≤ normSq (entry samples top)
  first : ∀ index < top, normSq (entry samples index) < normSq (entry samples top)

def loudest (samples : Array ℂ) : Set ℕ :=
  {index | ∃ inside : index < samples.size, ∀ sample ∈ samples, normSq sample ≤ normSq samples[index]}

/-- What the search for the peak remembers of the first `count` samples. -/
inductive Scanned (samples : Array ℂ) (count : ℕ) : Option (ℕ × ℝ) → Prop where
  | silent (zero : ∀ index < count, entry samples index = 0) : Scanned samples count none
  | found {top : ℕ} (inside : top < count) (loud : entry samples top ≠ 0)
      (highest : ∀ index < count, normSq (entry samples index) ≤ normSq (entry samples top))
      (first : ∀ index < top, normSq (entry samples index) < normSq (entry samples top)) :
      Scanned samples count (some (top, normSq (entry samples top)))

variable {samples : Array ℂ} {count top : ℕ} {best : Option (ℕ × ℝ)}

theorem Scanned.taken (loud : entry samples count ≠ 0)
    (below : ∀ index < count, normSq (entry samples index) < normSq (entry samples count)) :
    Scanned samples (count + 1) (some (count, normSq (entry samples count))) :=
  .found (Nat.lt_succ_self count) loud
    (Nat.forall_lt_succ_right.mpr ⟨fun index before => (below index before).le, le_refl _⟩) below

theorem Scanned.next (scanned : Scanned samples count best) :
    Scanned samples (count + 1) (strongest best count (entry samples count)) := by
  by_cases silent : entry samples count = 0
  · have kept : strongest best count (entry samples count) = best := by simp [strongest, silent]
    rw [kept]
    cases scanned with
    | silent zero => exact .silent (Nat.forall_lt_succ_right.mpr ⟨zero, silent⟩)
    | found inside loud highest first =>
        refine .found (Nat.lt_succ_of_lt inside) loud
          (Nat.forall_lt_succ_right.mpr ⟨highest, ?_⟩) first
        rw [silent, map_zero]
        exact normSq_nonneg _
  · cases scanned with
    | silent zero =>
        have taken : strongest none count (entry samples count) =
            some (count, normSq (entry samples count)) := by simp [strongest, silent]
        rw [taken]
        refine .taken silent fun index before => ?_
        rw [zero index before, map_zero]
        exact normSq_pos.mpr silent
    | @found top inside loud highest first =>
        by_cases weaker : normSq (entry samples count) ≤ normSq (entry samples top)
        · have kept : strongest (some (top, normSq (entry samples top))) count
              (entry samples count) = some (top, normSq (entry samples top)) := by
            simp [strongest, weaker]
          rw [kept]
          exact .found (Nat.lt_succ_of_lt inside) loud
            (Nat.forall_lt_succ_right.mpr ⟨highest, weaker⟩) first
        · have taken : strongest (some (top, normSq (entry samples top))) count
              (entry samples count) = some (count, normSq (entry samples count)) := by
            simp [strongest, silent, weaker]
          rw [taken]
          exact .taken silent fun index before =>
            (highest index before).trans_lt (not_le.mp weaker)

theorem scanned_take (within : count ≤ samples.size) :
    Scanned samples count ((samples.toList.take count).zipIdx.foldl
      (fun best (sample, index) => strongest best index sample) none) := by
  induction count with
  | zero => exact .silent nofun
  | succ count ih =>
      have inside : count < samples.size := within
      have last : samples.toList.take (count + 1) =
          samples.toList.take count ++ [entry samples count] := by
        rw [List.take_add_one, Array.getElem?_toList, entry, Array.getElem?_eq_getElem inside]
        rfl
      have length : (samples.toList.take count).length = count := by simp; omega
      rw [last, List.zipIdx_append, List.foldl_append, length, Nat.zero_add]
      exact (ih inside.le).next

theorem IsPeak.unique (peak : IsPeak samples top) {other : ℕ} (same : IsPeak samples other) :
    top = other := by
  rcases lt_trichotomy top other with before | equal | behind
  · exact absurd (same.first top before) (not_lt.mpr (peak.highest other same.inside))
  · exact equal
  · exact absurd (peak.first other behind) (not_lt.mpr (same.highest top peak.inside))

theorem forall_entry_iff (P : ℂ → Prop) :
    (∀ index < samples.size, P (entry samples index)) ↔ ∀ sample ∈ samples, P sample := by
  rw [Array.forall_mem_iff_forall_getElem]
  exact forall₂_congr fun index inside => by rw [entry_of_lt inside]

theorem mem_loudest_iff {index : ℕ} :
    index ∈ loudest samples ↔ index < samples.size ∧
      ∀ other < samples.size, normSq (entry samples other) ≤ normSq (entry samples index) := by
  rw [forall_entry_iff fun sample => normSq sample ≤ normSq (entry samples index)]
  constructor
  · rintro ⟨inside, highest⟩
    rw [entry_of_lt inside]
    exact ⟨inside, highest⟩
  · rintro ⟨inside, highest⟩
    rw [entry_of_lt inside] at highest
    exact ⟨inside, highest⟩

theorem IsPeak.isLeast (peak : IsPeak samples top) : IsLeast (loudest samples) top := by
  refine ⟨mem_loudest_iff.mpr ⟨peak.inside, peak.highest⟩, fun index member => ?_⟩
  by_contra before
  have weaker := peak.first index (not_le.mp before)
  exact absurd ((mem_loudest_iff.mp member).2 top peak.inside) (not_le.mpr weaker)

theorem peak_cases (samples : Array ℂ) :
    (peak samples = none ∧ ∀ index < samples.size, entry samples index = 0) ∨
      ∃ top, peak samples = some top ∧ IsPeak samples top := by
  have scanned := scanned_take (le_refl samples.size)
  rw [← Array.length_toList, List.take_length, Array.length_toList] at scanned
  unfold peak
  generalize samples.toList.zipIdx.foldl _ none = best at scanned ⊢
  cases scanned with
  | silent zero => exact .inl ⟨rfl, zero⟩
  | found inside loud highest first => exact .inr ⟨_, rfl, inside, loud, highest, first⟩

theorem peak_eq_some_iff : peak samples = some top ↔ IsPeak samples top := by
  rcases peak_cases samples with ⟨none, zero⟩ | ⟨found, located, isPeak⟩
  · rw [none]
    exact ⟨nofun, fun isPeak => absurd (zero top isPeak.inside) isPeak.loud⟩
  · rw [located, Option.some.injEq]
    exact ⟨fun same => same ▸ isPeak, isPeak.unique⟩

theorem peak_eq_none_iff : peak samples = none ↔ ∀ index < samples.size, entry samples index = 0 := by
  rcases peak_cases samples with ⟨none, zero⟩ | ⟨found, located, isPeak⟩
  · exact ⟨fun _ => zero, fun _ => none⟩
  · rw [located]
    exact ⟨nofun, fun zero => absurd (zero found isPeak.inside) isPeak.loud⟩

theorem peak_eq_none_iff_silent : peak samples = none ↔ ∀ sample ∈ samples, sample = 0 :=
  peak_eq_none_iff.trans (forall_entry_iff fun sample => sample = 0)

theorem exists_peak (loud : ∃ sample ∈ samples, sample ≠ 0) :
    ∃ top, peak samples = some top ∧ IsLeast (loudest samples) top := by
  obtain ⟨sample, member, nonzero⟩ := loud
  cases located : peak samples with
  | none => exact absurd (peak_eq_none_iff_silent.mp located sample member) nonzero
  | some top => exact ⟨top, rfl, (peak_eq_some_iff.mp located).isLeast⟩

theorem peak_eq_of_lt (inside : top < samples.size) (loud : entry samples top ≠ 0)
    (weaker : ∀ index < samples.size, index ≠ top →
      normSq (entry samples index) < normSq (entry samples top)) :
    peak samples = some top := by
  refine peak_eq_some_iff.mpr ⟨inside, loud, fun index within => ?_, fun index before =>
    weaker index (before.trans inside) before.ne⟩
  rcases eq_or_ne index top with rfl | different
  · exact le_refl _
  · exact (weaker index within different).le

end Wideband
