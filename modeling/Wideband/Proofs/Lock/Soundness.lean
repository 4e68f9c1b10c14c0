import Wideband.Proofs.Lock.Convergence

namespace Wideband.Lock

/-!
What a report of a lock is worth, whatever the sources answer and whatever the transforms compute. A
run that ends well ends with a whole round in which every trial found all streams in step, and skips
nothing after that round began; each source has moved by so many whole buffers and by what the
report says was skipped (`Synchronizer.run_sound`). Failed runs before it make no difference.
-/

variable {ρ C R π : Type} [Component R] [Sample C R] [Source ρ C]

namespace Work

inductive Stepped (planner : Planner C π) (work : Work ρ C π) :
    Progress Report × Work ρ C π → List Event → Prop where
  | gaveUp (stage : work.synchronizer.phase = .measuring) :
      Stepped planner work
        (.ended (.fail (.notConverged work.synchronizer.report.attempts)), work) []
  | broke (stage : work.synchronizer.phase = .measuring) (failure : Failure) (next : Work ρ C π)
      (measured : work.begun.measure planner work.synchronizer.settings.trials none =
        (.error failure, next)) :
      Stepped planner work (.ended (.error failure), next)
        (.round :: work.begun.measureLog planner work.synchronizer.settings.trials none)
  | agreed (stage : work.synchronizer.phase = .measuring) (offsets : List ℤ) (next : Work ρ C π)
      (measured : work.begun.measure planner work.synchronizer.settings.trials none =
        (.ok (some offsets), next)) :
      Stepped planner work (.ongoing, next.inPhase (.draining offsets))
        (.round :: work.begun.measureLog planner work.synchronizer.settings.trials none)
  | rejected (stage : work.synchronizer.phase = .measuring) (next : Work ρ C π)
      (measured : work.begun.measure planner work.synchronizer.settings.trials none =
        (.ok none, next)) :
      Stepped planner work
        (.ongoing, next.reporting fun report => { report with rejected := report.rejected + 1 })
        (.round :: work.begun.measureLog planner work.synchronizer.settings.trials none)
  | halted (offsets : List ℤ) (stage : work.synchronizer.phase = .draining offsets) :
      Stepped planner work (.ended (.fail .cancelled), work.inPhase .measuring) [.poll true]
  | settled (offsets : List ℤ) (stage : work.synchronizer.phase = .draining offsets)
      (zero : ∀ offset ∈ offsets, offset = 0) :
      Stepped planner work (.ongoing, work.inPhase .locked) [.poll false]
  | stuck (offsets : List ℤ) (stage : work.synchronizer.phase = .draining offsets)
      (failure : Failure) (next : Work ρ C π)
      (drained : (work.inPhase .measuring).drain offsets = (.error failure, next)) :
      Stepped planner work (.ended (.error failure), next)
        (.poll false :: (work.inPhase .measuring).drainLog offsets)
  | drained (offsets : List ℤ) (stage : work.synchronizer.phase = .draining offsets)
      (next : Work ρ C π) (drained : (work.inPhase .measuring).drain offsets = (.ok (), next)) :
      Stepped planner work (.ongoing, next)
        (.poll false :: (work.inPhase .measuring).drainLog offsets)
  | finished (stage : work.synchronizer.phase = .locked) :
      Stepped planner work (.ended (.ok work.synchronizer.report), work) []

theorem stepped (planner : Planner C π) (work : Work ρ C π) :
    Stepped planner work (work.step planner) (work.stepLog planner) := by
  cases stage : work.synchronizer.phase with
  | locked =>
      simp only [step, stepLog, stage]
      exact .finished stage
  | measuring =>
      cases exhausted : work.exhausted with
      | true =>
          simp only [step, stepLog, stage, exhausted, if_true]
          exact .gaveUp stage
      | false =>
          have log : work.stepLog planner = .round ::
              work.begun.measureLog planner work.synchronizer.settings.trials none := by
            simp [stepLog, stage, exhausted]
          rw [step_measuring stage exhausted, log]
          cases measured : work.begun.measure planner work.synchronizer.settings.trials none with
          | mk outcome next =>
              cases outcome with
              | error failure => exact .broke stage failure next measured
              | ok result =>
                  cases result with
                  | none => exact .rejected stage next measured
                  | some offsets => exact .agreed stage offsets next measured
  | draining offsets =>
      have same : (work.inPhase .measuring).cancelled = work.cancelled := rfl
      cases live : work.cancelled with
      | true =>
          simp only [step, stepLog, stage, same, live, if_true]
          exact .halted offsets stage
      | false =>
          by_cases zero : offsets.all (· == 0) = true
          · simp only [step, stepLog, stage, same, live, zero, if_true]
            exact .settled offsets stage (by simpa using zero)
          · have log : work.stepLog planner =
                .poll false :: (work.inPhase .measuring).drainLog offsets := by
              simp only [stepLog, stage, live, zero]
              rfl
            rw [step_draining stage live zero, log]
            cases drained : (work.inPhase .measuring).drain offsets with
            | mk outcome next =>
                cases outcome with
                | error failure => exact .stuck offsets stage failure next drained
                | ok _ => exact .drained offsets stage next drained

variable {planner : Planner C π} {settings : Settings} {streams : ℕ} {phase : Phase}
  {work last : Work ρ C π} {position : ρ → ℕ}

theorem round_fit (honest : Source.Honest (C := C) position) (kept : planner.KeepsSizes)
    (fit : work.synchronizer.Fit settings streams phase) {trials : ℕ}
    {outcome : Outcome (Option (List ℤ))}
    (measured : work.begun.measure planner trials none = (outcome, last)) :
    last.synchronizer.Fit settings streams phase := by
  have after := measure_fit honest kept trials none (begun_fit fit)
  rwa [measured] at after

/-- A log whose last entries are a round in which all trials found all streams in step, and the
answer that the session goes on. -/
def Concludes (settings : Settings) (streams : ℕ) (log : List Event) : Prop :=
  ∃ before, log = before ++ agreeingRound streams settings.trials ++ [.poll false]

theorem Concludes.append {log : List Event} (concludes : Concludes settings streams log)
    (front : List Event) : Concludes settings streams (front ++ log) := by
  obtain ⟨before, rfl⟩ := concludes
  exact ⟨front ++ before, by rw [List.append_assoc, List.append_assoc, List.append_assoc]⟩

/-- The log of a run that ends well, from each phase on. While offsets wait to be drained, their
round lies behind. -/
def Confirms (settings : Settings) (streams : ℕ) (log : List Event) : Phase → Prop
  | .measuring => Concludes settings streams log
  | .draining offsets =>
      ((∀ offset ∈ offsets, offset = 0) ∧ log = [.poll false]) ∨ Concludes settings streams log
  | .locked => log = []

/-- What a step with this log leaves behind that is not the last one, in which phase it goes on, and
what the rest of the log has to show there. -/
structure Onward (position : ρ → ℕ) (settings : Settings) (streams : ℕ) (phase : Phase)
    (log : List Event) (work next : Work ρ C π) (later : Phase) : Prop where
  unlocked : phase ≠ .locked
  fit : next.synchronizer.Fit settings streams later
  moved : work.sources.length = streams →
    Moved position (log.countP Event.fetches * settings.length) work next
  confirms : ∀ rest, Confirms settings streams rest later →
    Confirms settings streams (log ++ rest) phase

theorem step_onward (honest : Source.Honest (C := C) position) (kept : planner.KeepsSizes)
    (fit : work.synchronizer.Fit settings streams phase)
    (ongoing : work.step planner = (.ongoing, last)) :
    ∃ later, Onward position settings streams phase (work.stepLog planner) work last later := by
  have way := stepped planner work
  have stage := fit.stage
  rw [ongoing] at way
  generalize work.stepLog planner = log at way ⊢
  cases way with
  | agreed measuring offsets next measured =>
      obtain rfl := stage.symm.trans measuring
      have found := congrArg Prod.fst measured
      have moved := measure_moved honest kept (begun_fit fit) found
      rw [measured] at moved
      refine ⟨_, by simp, inPhase_fit (round_fit honest kept fit measured) _,
        fun _ => ⟨moved.streams, moved.places⟩, ?_⟩
      rintro rest (⟨zero, rfl⟩ | concludes)
      · refine ⟨[], ?_⟩
        rw [measureLog_zero honest kept (begun_fit fit) found zero, fit.fixed]
        rfl
      · exact concludes.append _
  | rejected measuring next measured =>
      obtain rfl := stage.symm.trans measuring
      have moved := measure_moved honest kept (begun_fit fit) (congrArg Prod.fst measured)
      rw [measured] at moved
      exact ⟨.measuring, by simp, rejected_fit (round_fit honest kept fit measured),
        fun _ => ⟨moved.streams, moved.places⟩, fun _ concludes => Concludes.append concludes _⟩
  | settled offsets draining zero =>
      obtain rfl := stage.symm.trans draining
      refine ⟨_, by simp, inPhase_fit fit _, fun _ => ?_, ?_⟩
      · rw [List.countP_cons_of_neg Bool.false_ne_true, List.countP_nil, Nat.zero_mul]
        exact .still rfl rfl
      · rintro _ rfl
        exact .inl ⟨zero, rfl⟩
  | drained offsets draining next drained =>
      obtain rfl := stage.symm.trans draining
      refine ⟨.measuring, by simp, drained_fit fit drained, fun paired => ?_,
        fun _ concludes => .inr (Concludes.append concludes _)⟩
      obtain ⟨moved, none⟩ := drain_moved honest (inPhase_fit fit .measuring) paired
        (congrArg Prod.fst drained)
      rw [drained] at moved
      rw [List.countP_cons_of_neg Bool.false_ne_true, none, Nat.zero_mul]
      exact ⟨moved.streams, moved.places⟩

theorem step_ok {report : Report} (fit : work.synchronizer.Fit settings streams phase)
    (ended : work.step planner = (.ended (.ok report), last)) :
    phase = .locked ∧ report = work.synchronizer.report ∧ last = work ∧
      work.stepLog planner = [] := by
  have way := stepped planner work
  rw [ended] at way
  generalize work.stepLog planner = log at way ⊢
  cases way with
  | finished locked => exact ⟨fit.stage.symm.trans locked, rfl, rfl, rfl⟩

theorem step_failed (honest : Source.Honest (C := C) position) (kept : planner.KeepsSizes)
    {cause : Error} (fit : work.synchronizer.Fit settings streams phase)
    (failed : work.step planner = (.ended (.error (.error cause)), last)) :
    phase ≠ .locked ∧ last.synchronizer.Fit settings streams .measuring := by
  have way := stepped planner work
  have stage := fit.stage
  rw [failed] at way
  generalize work.stepLog planner = log at way
  cases way with
  | gaveUp measuring =>
      obtain rfl := stage.symm.trans measuring
      exact ⟨by simp, fit⟩
  | broke measuring failure next measured =>
      obtain rfl := stage.symm.trans measuring
      exact ⟨by simp, round_fit honest kept fit measured⟩
  | halted offsets draining =>
      obtain rfl := stage.symm.trans draining
      exact ⟨by simp, inPhase_fit fit _⟩
  | stuck offsets draining failure next drained =>
      obtain rfl := stage.symm.trans draining
      exact ⟨by simp, drained_fit fit drained⟩

theorem stepsFor_failed (honest : Source.Honest (C := C) position) (kept : planner.KeepsSizes)
    {steps : ℕ} {cause : Error} (fit : work.synchronizer.Fit settings streams phase)
    (failed : work.stepsFor planner steps = (.error (.error cause), last)) :
    phase ≠ .locked ∧ last.synchronizer.Fit settings streams .measuring := by
  induction steps generalizing work phase with
  | zero => cases failed
  | succ steps ih =>
      cases went : work.step planner with
      | mk progress next =>
          simp only [stepsFor, went] at failed
          cases progress with
          | ended outcome =>
              cases failed
              exact step_failed honest kept fit went
          | ongoing =>
              obtain ⟨later, onward⟩ := step_onward honest kept fit went
              exact ⟨onward.unlocked, (ih onward.fit failed).2⟩

theorem stepsFor_ok (honest : Source.Honest (C := C) position) (kept : planner.KeepsSizes)
    {steps : ℕ} {report : Report} (fit : work.synchronizer.Fit settings streams phase)
    (paired : work.sources.length = streams)
    (done : work.stepsFor planner steps = (.ok report, last)) :
    last.synchronizer.Fit settings streams .locked ∧ report = last.synchronizer.report ∧
      Moved position ((work.stepsLog planner steps).countP Event.fetches * settings.length)
        work last ∧
      Confirms settings streams (work.stepsLog planner steps) phase := by
  -- What the rest of the log has to show depends on the phase: while offsets wait to be drained,
  -- the round that found them lies behind, and counts only if they are all zero.
  induction steps generalizing work phase with
  | zero => cases done
  | succ steps ih =>
      cases went : work.step planner with
      | mk progress next =>
          simp only [stepsFor, stepsLog, went] at done ⊢
          cases progress with
          | ended outcome =>
              cases done
              obtain ⟨rfl, rfl, rfl, silent⟩ := step_ok fit went
              rw [silent]
              refine ⟨fit, rfl, ?_, rfl⟩
              simpa using Moved.still rfl rfl
          | ongoing =>
              obtain ⟨later, onward⟩ := step_onward honest kept fit went
              have moved := onward.moved paired
              obtain ⟨fitLast, same, rest, confirms⟩ :=
                ih onward.fit (moved.streams.trans paired) done
              refine ⟨fitLast, same, ?_, onward.confirms _ confirms⟩
              rw [List.countP_append, Nat.add_mul]
              exact moved.trans rest

end Work

namespace Synchronizer

variable {planner : Planner C π} {settings : Settings} {streams : ℕ} {phase : Phase}
  {fresh synchronizer : Synchronizer C π} {sources : List ρ} {cancelled : Bool} {position : ρ → ℕ}
  {last : Work ρ C π}

/-- The synchronizers that runs which failed have left behind. A run that breaks down leaves
nothing to go on with. -/
inductive Retried (ρ : Type) [Source ρ C] (planner : Planner C π) (fresh : Synchronizer C π) :
    Synchronizer C π → Prop where
  | fresh : Retried ρ planner fresh fresh
  | failed {synchronizer : Synchronizer C π} (earlier : Retried ρ planner fresh synchronizer)
      (sources : List ρ) (cancelled : Bool) {cause : Error} {last : Work ρ C π}
      (failed : synchronizer.run planner sources cancelled = (.error (.error cause), last)) :
      Retried ρ planner fresh last.synchronizer

theorem length_checkSources (accepted : synchronizer.checkSources sources = .ok ()) :
    sources.length = synchronizer.buffers.length := by
  unfold checkSources at accepted
  obtain ⟨same, _⟩ := Outcome.of_unless accepted
  simpa using same

theorem Retried.fit (honest : Source.Honest (C := C) position) (kept : planner.KeepsSizes)
    (prepared : prepare planner streams settings = .ok fresh)
    (retried : Retried ρ planner fresh synchronizer) :
    synchronizer.Fit settings streams .measuring := by
  induction retried with
  | fresh => exact (prepare_fit prepared).1
  | failed earlier sources cancelled failed ih =>
      unfold run at failed
      split at failed
      · cases failed
        exact ih
      · exact (Work.stepsFor_failed honest kept ih failed).2

/-- The report of a run that ends well is right: the last round found all streams in step in each of
its trials and nothing was skipped after it began, and beyond the buffers that were read in common
each source has moved by what the report says was skipped. It makes no difference which runs have
failed before. -/
theorem run_sound (honest : Source.Honest (C := C) position) (kept : planner.KeepsSizes)
    (prepared : prepare planner streams settings = .ok fresh)
    (retried : Retried ρ planner fresh synchronizer) {report : Report}
    (ended : synchronizer.run planner sources cancelled = (.ok report, last)) :
    sources.length = streams ∧ last.sources.length = streams ∧ report.drained.length = streams ∧
      fresh.report.drained = List.replicate streams 0 ∧
      Work.Concludes settings streams (synchronizer.log planner sources cancelled) ∧
      ∀ stream < streams,
        (last.sources.map position)[stream]?.getD 0 +
            synchronizer.report.drained[stream]?.getD 0 =
          (sources.map position)[stream]?.getD 0 +
            (synchronizer.log planner sources cancelled).countP Event.fetches * settings.length +
            report.drained[stream]?.getD 0 := by
  have fit := retried.fit honest kept prepared
  cases accepted : synchronizer.checkSources sources with
  | error cause => simp [run, accepted, Outcome.fail] at ended
  | ok _ =>
      have paired := (length_checkSources accepted).trans fit.paired
      simp only [run, accepted] at ended
      simp only [log, accepted]
      have start : (Work.mk synchronizer sources cancelled).synchronizer.Fit settings streams
          .measuring := fit
      obtain ⟨fitLast, rfl, moved, concludes⟩ := Work.stepsFor_ok honest kept start paired ended
      exact ⟨paired, moved.streams.trans paired, fitLast.columns, (prepare_fit prepared).2, concludes,
        fun stream inside => moved.places stream (paired ▸ inside)⟩

theorem run_sound_pulse :
    ∃ (sources : List (Metered (Replay ℂ))) (fresh : Synchronizer ℂ Plan) (report : Report)
        (last : Work (Metered (Replay ℂ)) ℂ Plan),
      sources = [⟨.standing #[1, 0] 1 1 0, 0⟩, ⟨.standing #[1, 0] 1 1 1, 1⟩] ∧
      prepare (Planner.ofKernel Dft.transform) 2 ⟨2, 3, some 2⟩ = .ok fresh ∧
      fresh.run (Planner.ofKernel Dft.transform) sources false = (.ok report, last) ∧
      Work.Concludes ⟨2, 3, some 2⟩ 2 (fresh.log (Planner.ofKernel Dft.transform) sources false) := by
  let stream (_ : Unit) (position : ℕ) : Metered (Replay ℂ) :=
    ⟨.standing #[1, 0] 1 1 position, position⟩
  have scene : Scene (Planner.ofKernel Dft.transform) #[1, 0] ⟨2, 3, some 2⟩ stream fun _ => 1 := {
    exact := Planner.isFourier_ofKernel
    reliable := Planner.reliable_ofKernel _
    distinct := distinct_pulse
    long := by simp
    length := rfl
    plays := fun _ => Metered.plays_metered (Replay.plays (by simp) 1 1)
    unit := fun _ => norm_one
    format := fun _ _ => rfl
    rate := ⟨1, fun _ _ => rfl⟩ }
  obtain ⟨fresh, last, attempts, count, _, prepared, ran, _⟩ :=
    run_converges scene rfl (by simp) ⟨(), 0, 0⟩ [⟨(), 1, 0⟩] (by simp)
  obtain ⟨_, _, _, _, concludes, _⟩ :=
    run_sound Replay.honest_given Planner.keepsSizes_ofKernel prepared .fresh ran
  exact ⟨_, fresh, _, last, rfl, prepared, ran, concludes⟩

end Synchronizer

end Wideband.Lock
