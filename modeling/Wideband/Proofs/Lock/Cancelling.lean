import Wideband.Lock.Rotators
import Wideband.Proofs.Lock.Soundness

namespace Wideband.Lock

variable {ρ C R π : Type}

/-- The failures with which something ends in a cancelled session that would have come to `live`
otherwise. -/
inductive Barred {α : Type} (planner : Planner C π) (live : Outcome α) : Failure → Prop where
  | cancelled : Barred planner live (.error .cancelled)
  | unreleased {plan : π} {cause : Error} (kept : (planner.close plan).1 = .error cause) :
      Barred planner live (.error cause)
  | refused {failure : Failure} (same : live = .error failure) : Barred planner live failure

theorem Barred.mono {α β : Type} {planner : Planner C π} {live : Outcome α} {other : Outcome β}
    {failure : Failure} (barred : Barred planner live failure)
    (same : ∀ failure, live = .error failure → other = .error failure) :
    Barred planner other failure := by
  cases barred with
  | cancelled => exact .cancelled
  | unreleased kept => exact .unreleased kept
  | refused refusal => exact .refused (same failure refusal)

theorem unreleased_correlator {planner : Planner C π} {correlator : Correlator C π} {cause : Error}
    (failed : (correlator.close planner).1 = .error cause) :
    ∃ plan, (planner.close plan).1 = .error cause := by
  simp only [Correlator.close, Convolver.close] at failed
  cases first : (planner.close correlator.convolver.forwardA).1 with
  | error other =>
      rw [first] at failed
      cases failed
      exact ⟨_, first⟩
  | ok _ =>
      cases second : (planner.close correlator.convolver.forwardB).1 with
      | error other =>
          rw [first, second] at failed
          cases failed
          exact ⟨_, second⟩
      | ok _ =>
          rw [first, second] at failed
          exact ⟨_, failed⟩

theorem Settings.attempts_left {settings : Settings} (checked : settings.check = .ok ()) :
    settings.maxAttempts ≠ some 0 := by
  intro none
  unfold check at checked
  repeat' split at checked
  · cases checked
  · cases checked
  · contradiction

namespace Synchronizer

variable {planner : Planner C π} {settings : Settings} {streams : ℕ} {fresh : Synchronizer C π}

variable [Component R] [Sample C R] [Source ρ C]

/-- The first poll of a run in a cancelled session ends it, before anything is read. -/
theorem run_cancelled (prepared : prepare planner streams settings = .ok fresh) {sources : List ρ}
    (accepted : fresh.checkSources sources = .ok ()) :
    fresh.run planner sources true = (.fail .cancelled, (Work.mk fresh sources true).begun) ∧
      fresh.log planner sources true = [.round, .poll true] := by
  obtain ⟨fit, _⟩ := prepare_fit prepared
  obtain ⟨checked, report⟩ := prepare_report prepared
  have trials := Settings.trials_ne_zero checked
  obtain ⟨trials, more⟩ := Nat.exists_eq_succ_of_ne_zero trials
  -- The run gets to its first poll: it takes a step, which finds an attempt left and a trial to make.
  obtain ⟨steps, taken⟩ := settings.exists_steps
  have left : (Work.mk fresh sources true).exhausted = false := by
    have some := Settings.attempts_left checked
    simp only [Work.exhausted, fit.fixed, report]
    cases limit : settings.maxAttempts with
    | none => rfl
    | some limit =>
        rw [limit] at some
        simpa using some
  have count : fresh.settings.trials = trials + 1 := (congrArg Settings.trials fit.fixed).trans more
  have step : (Work.mk fresh sources true).step planner =
      (.ended (.fail .cancelled), (Work.mk fresh sources true).begun) := by
    rw [Work.step_measuring fit.stage left]
    simp only [count]
    rfl
  have events : (Work.mk fresh sources true).stepLog planner = [.round, .poll true] := by
    simp only [Work.stepLog, fit.stage, left, count, Bool.false_eq_true, if_false]
    rfl
  refine ⟨?_, ?_⟩
  · simp only [run, accepted, fit.fixed, taken, Work.stepsFor, step]
  · simp only [log, accepted, fit.fixed, taken, Work.stepsLog, step, events]
    rfl

end Synchronizer

theorem synchronize_cancelled [Component R] [Sample C R] [Source ρ C] (planner : Planner C π)
    (settings : Settings) (sources : List ρ) :
    ∃ failure, (synchronize planner settings sources true).outcome = .error failure ∧
      Barred planner (synchronize planner settings sources false).outcome failure := by
  unfold synchronize
  cases prepared : Synchronizer.prepare planner sources.length settings with
  | error cause => exact ⟨_, rfl, .refused rfl⟩
  | ok synchronizer =>
      cases accepted : synchronizer.checkSources sources with
      | error cause =>
          simp only [Synchronizer.run, accepted]
          cases released : synchronizer.close planner with
          | mk result left => cases result <;> exact ⟨_, rfl, .refused rfl⟩
      | ok _ =>
          have halted := congrArg Prod.fst (Synchronizer.run_cancelled prepared accepted).1
          cases ran : synchronizer.run planner sources true with
          | mk outcome work =>
              rw [ran] at halted
              obtain rfl : outcome = .fail .cancelled := halted
              cases released : work.synchronizer.close planner with
              | mk result left =>
                  simp only [ran, released, Outcome.fail]
                  cases result with
                  | error other =>
                      have failed : (work.synchronizer.correlator.close planner).1 =
                          .error other := congrArg Prod.fst released
                      obtain ⟨plan, kept⟩ := unreleased_correlator failed
                      exact ⟨_, rfl, .unreleased kept⟩
                  | ok _ => exact ⟨_, rfl, .cancelled⟩

end Wideband.Lock
