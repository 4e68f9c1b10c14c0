import Wideband.Proofs.Transform.Convolving
import Wideband.Transform.Correlator

namespace Wideband

section Peak

variable {C R : Type} [Component R] [Sample C R]

theorem strongest_eq (best : Option (ℕ × R)) (index : ℕ) (sample : C) :
    strongest best index sample = best ∨
      strongest best index sample = some (index, Sample.power sample) := by
  by_cases weak : Component.same (Sample.power sample : R) 0
  · exact .inl (by simp [strongest, weak])
  cases best with
  | none => exact .inr (by simp [strongest, weak])
  | some mark =>
      by_cases higher : Component.atLeast mark.2 (Sample.power sample)
      · exact .inl (by simp [strongest, weak, higher])
      · exact .inr (by simp [strongest, weak, higher])

theorem peak_lt {samples : Array C} {found : ℕ} (located : peak samples = some found) :
    found < samples.size := by
  have every : ∀ (marked : List (C × ℕ)) (best : Option (ℕ × R)),
      (∀ sample ∈ marked, sample.2 < samples.size) → (∀ mark ∈ best, mark.1 < samples.size) →
      ∀ mark ∈ marked.foldl (fun best sample => strongest best sample.2 sample.1) best,
        mark.1 < samples.size := by
    intro marked
    induction marked with
    | nil => exact fun best _ inside => inside
    | cons sample marked ih =>
        intro best indices inside
        refine ih _ (fun next member => indices next (by simp [member])) ?_
        change ∀ mark ∈ strongest best sample.2 sample.1, mark.1 < samples.size
        rcases strongest_eq best sample.2 sample.1 with kept | taken
        · rw [kept]
          exact inside
        · rw [taken]
          rintro mark ⟨rfl⟩
          exact indices sample (by simp)
  obtain ⟨mark, last, rfl⟩ := Option.map_eq_some_iff.mp located
  refine every samples.toList.zipIdx none (fun sample member => ?_) (by simp) mark last
  have bound := (List.mem_zipIdx' member).1
  simpa using bound

end Peak

/-- An index and the offset that it means differ by whole turns. -/
theorem signedOffset_modEq (index length : ℕ) : signedOffset index length ≡ index [ZMOD length] := by
  unfold signedOffset
  split
  · exact Int.sub_modulus_modEq_iff.mpr rfl
  · rfl

theorem signedOffset_eq_zero_iff {index length : ℕ} (inside : index < length) :
    signedOffset index length = 0 ↔ index = 0 := by
  unfold signedOffset
  split <;> omega

variable {C R π : Type} [Component R] [Sample C R] {planner : Planner C π}

theorem Convolver.size_run (kept : planner.KeepsSizes) (convolver : Convolver C π)
    (destination a b : Array C) :
    (convolver.run planner destination a b).a.size = a.size ∧
      (convolver.run planner destination a b).b.size = b.size := by
  have ran := convolver.ran_run planner destination a b
  generalize convolver.run planner destination a b = left at ran ⊢
  cases ran with
  | refused => exact ⟨rfl, rfl⟩
  | first => exact ⟨kept .., rfl⟩
  | second => exact ⟨kept .., kept ..⟩
  | last => exact ⟨kept .., kept ..⟩

namespace Correlator

variable {correlator : Correlator C π} {reference stream : Array C} {index : ℕ}

theorem size_lag (kept : planner.KeepsSizes) (correlator : Correlator C π)
    (reference stream : Array C) (index : ℕ) :
    (correlator.lag planner reference stream index).reference.size = reference.size ∧
      (correlator.lag planner reference stream index).stream.size = stream.size :=
  correlator.convolver.size_run kept correlator.output reference stream

theorem peak_of_lag {offset : ℤ}
    (measured : (correlator.lag planner reference stream index).result = .ok offset) :
    ∃ found, peak (correlator.lag planner reference stream index).correlator.output = some found ∧
      offset =
        signedOffset found (correlator.lag planner reference stream index).correlator.output.size := by
  simp only [lag] at measured ⊢
  split at measured
  · cases measured
  · split at measured
    · cases measured
    · rename_i found located
      cases measured
      exact ⟨found, located, rfl⟩

theorem peak_zero_of_lag
    (measured : (correlator.lag planner reference stream index).result = .ok 0) :
    peak (correlator.lag planner reference stream index).correlator.output = some 0 := by
  obtain ⟨found, located, same⟩ := peak_of_lag measured
  rw [located, (signedOffset_eq_zero_iff (peak_lt located)).mp same.symm]

end Correlator

end Wideband
