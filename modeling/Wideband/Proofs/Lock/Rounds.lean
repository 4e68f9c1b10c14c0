import Wideband.Proofs.Lock.Log
import Wideband.Proofs.Outcome
import Wideband.Proofs.Source.Honest
import Wideband.Proofs.Transform.Lag

namespace Wideband.Lock

/-!
What rounds of measuring and draining do to the sources and to the books. Every operation leaves a
synchronizer fit for the next one, also where it fails (`Synchronizer.Fit`), and every operation that
succeeds moves each source by what was read in common and by what it enters into the report as
skipped (`Work.Moved`). Nothing is asked of what the transforms compute.
-/

variable {ρ C R π : Type}

theorem Settings.exists_steps (settings : Settings) : ∃ steps, settings.steps = steps + 1 := by
  refine Nat.exists_eq_succ_of_ne_zero ?_
  cases limit : settings.maxAttempts <;> simp [steps, limit]

structure Synchronizer.Fit (settings : Settings) (streams : ℕ) (phase : Phase)
    (synchronizer : Synchronizer C π) : Prop where
  fixed : synchronizer.settings = settings
  stage : synchronizer.phase = phase
  paired : synchronizer.buffers.length = streams
  sizes : ∀ buffer ∈ synchronizer.buffers,
    buffer.format = .complex ∧ buffer.size = settings.length
  columns : synchronizer.report.drained.length = streams

theorem Synchronizer.prepare_fit [Zero C] {planner : Planner C π} {settings : Settings}
    {streams : ℕ} {fresh : Synchronizer C π}
    (prepared : prepare planner streams settings = .ok fresh) :
    fresh.Fit settings streams .measuring ∧ fresh.report.drained = List.replicate streams 0 := by
  unfold prepare at prepared
  obtain ⟨_, _, prepared⟩ := Outcome.of_bind prepared
  obtain ⟨_, prepared⟩ := Outcome.of_unless prepared
  obtain ⟨correlator, _, prepared⟩ := Outcome.of_bind prepared
  cases prepared
  refine ⟨⟨rfl, rfl, List.length_replicate, fun buffer member => ?_, List.length_replicate⟩, rfl⟩
  rw [List.eq_of_mem_replicate member]
  exact ⟨Buffer.format_silent _ _, Buffer.size_silent _ _⟩

theorem Synchronizer.prepare_report [Zero C] {planner : Planner C π} {settings : Settings}
    {streams : ℕ} {fresh : Synchronizer C π}
    (prepared : prepare planner streams settings = .ok fresh) :
    settings.check = .ok () ∧ fresh.report = ⟨0, 0, List.replicate streams 0⟩ := by
  unfold prepare at prepared
  obtain ⟨_, checked, prepared⟩ := Outcome.of_bind prepared
  obtain ⟨_, prepared⟩ := Outcome.of_unless prepared
  obtain ⟨correlator, _, prepared⟩ := Outcome.of_bind prepared
  cases prepared
  exact ⟨checked, rfl⟩

namespace Work

def place (position : ρ → ℕ) (work : Work ρ C π) (stream : ℕ) : ℕ :=
  (work.sources.map position)[stream]?.getD 0

def skipped (work : Work ρ C π) (stream : ℕ) : ℕ :=
  work.synchronizer.report.drained[stream]?.getD 0

/-- Every source has moved by `amount` samples and by those that were skipped meanwhile. -/
structure Moved (position : ρ → ℕ) (amount : ℕ) (work next : Work ρ C π) : Prop where
  streams : next.sources.length = work.sources.length
  places : ∀ stream < work.sources.length,
    next.place position stream + work.skipped stream =
      work.place position stream + amount + next.skipped stream

variable {position : ρ → ℕ} {work next last : Work ρ C π} {amount more : ℕ}

theorem Moved.still (sources : next.sources = work.sources)
    (drained : next.synchronizer.report.drained = work.synchronizer.report.drained) :
    Moved position 0 work next where
  streams := by rw [sources]
  places := by
    intro stream _
    rw [place, place, skipped, skipped, sources, drained]
    omega

theorem Moved.trans (first : Moved position amount work next)
    (second : Moved position more next last) : Moved position (amount + more) work last where
  streams := second.streams.trans first.streams
  places := by
    intro stream inside
    have before := first.places stream inside
    have after := second.places stream (first.streams ▸ inside)
    omega

variable {settings : Settings} {streams : ℕ} {phase : Phase}

theorem begun_fit (fit : work.synchronizer.Fit settings streams phase) :
    work.begun.synchronizer.Fit settings streams phase :=
  ⟨fit.fixed, fit.stage, fit.paired, fit.sizes, fit.columns⟩

theorem rejected_fit (fit : work.synchronizer.Fit settings streams phase) :
    (work.reporting fun report =>
      { report with rejected := report.rejected + 1 }).synchronizer.Fit settings streams phase :=
  ⟨fit.fixed, fit.stage, fit.paired, fit.sizes, fit.columns⟩

theorem inPhase_fit (fit : work.synchronizer.Fit settings streams phase) (next : Phase) :
    (work.inPhase next).synchronizer.Fit settings streams next :=
  ⟨fit.fixed, rfl, fit.paired, fit.sizes, fit.columns⟩

end Work

section Measuring

variable [Component R] [Sample C R] {planner : Planner C π}

theorem measureLags_sizes (kept : planner.KeepsSizes) (correlator : Correlator C π)
    (reference : Array C) (index : ℕ) {length : ℕ} {buffers : List (Buffer C)}
    (sizes : ∀ buffer ∈ buffers, buffer.format = .complex ∧ buffer.size = length) :
    (measureLags planner correlator reference index buffers).reference.size = reference.size ∧
      (measureLags planner correlator reference index buffers).buffers.length = buffers.length ∧
      ∀ buffer ∈ (measureLags planner correlator reference index buffers).buffers,
        buffer.format = .complex ∧ buffer.size = length := by
  induction buffers generalizing correlator reference index with
  | nil => exact ⟨rfl, rfl, nofun⟩
  | cons buffer buffers ih =>
      obtain ⟨format, size⟩ := sizes buffer (by simp)
      have others : ∀ buffer ∈ buffers, buffer.format = .complex ∧ buffer.size = length :=
        fun buffer member => sizes buffer (by simp [member])
      cases buffer with
      | complex samples =>
          obtain ⟨sameReference, sameStream⟩ := correlator.size_lag kept reference samples index
          have own : (Buffer.complex
              (correlator.lag planner reference samples index).stream).format = .complex ∧
              (Buffer.complex
                (correlator.lag planner reference samples index).stream).size = length :=
            ⟨rfl, sameStream.trans size⟩
          cases measured : (correlator.lag planner reference samples index).result with
          | error cause =>
              simp only [measureLags, Buffer.samples, measured, List.mem_cons, forall_eq_or_imp]
              exact ⟨sameReference, rfl, own, others⟩
          | ok offset =>
              obtain ⟨restReference, restLength, restSizes⟩ :=
                ih (correlator.lag planner reference samples index).correlator
                  (correlator.lag planner reference samples index).reference (index + 1) others
              simp only [measureLags, Buffer.samples, measured, List.mem_cons, forall_eq_or_imp,
                List.length_cons]
              exact ⟨restReference.trans sameReference, by rw [restLength], own, restSizes⟩
      | unsigned8 pairs => cases format
      | signed8 pairs => cases format
      | signed16 pairs => cases format

theorem lagLog_zero {correlator : Correlator C π} {reference : Array C} {index : ℕ}
    {buffers : List (Buffer C)} {offsets : List ℤ}
    (measured : (measureLags planner correlator reference index buffers).result = .ok offsets)
    (zero : ∀ offset ∈ offsets, offset = 0) :
    lagLog planner correlator reference index buffers =
      (List.range' index buffers.length).map fun stream => .lag stream (some 0) (.ok 0) := by
  induction buffers generalizing correlator reference index offsets with
  | nil => rfl
  | cons buffer buffers ih =>
      cases read : buffer.samples with
      | error cause => simp [measureLags, read] at measured
      | ok samples =>
          cases first : (correlator.lag planner reference samples index).result with
          | error cause => simp [measureLags, read, first] at measured
          | ok offset =>
              simp only [measureLags, read, first] at measured
              cases rest : (measureLags planner
                  (correlator.lag planner reference samples index).correlator
                  (correlator.lag planner reference samples index).reference (index + 1)
                  buffers).result with
              | error cause => simp [rest, Except.map] at measured
              | ok others =>
                  simp only [rest, Except.map, Except.ok.injEq] at measured
                  subst measured
                  obtain rfl := zero offset (by simp)
                  have later := ih rest fun offset member => zero offset (by simp [member])
                  simp only [lagLog, read, first, Correlator.peak_zero_of_lag first, later,
                    List.length_cons, List.range'_succ, List.map_cons]

theorem fetches_lagLog (planner : Planner C π) (correlator : Correlator C π) (reference : Array C)
    (index : ℕ) (buffers : List (Buffer C)) :
    (lagLog planner correlator reference index buffers).countP Event.fetches = 0 := by
  induction buffers generalizing correlator reference index with
  | nil => rfl
  | cons buffer buffers ih =>
      cases read : buffer.samples with
      | error cause => simp [lagLog, read]
      | ok samples =>
          cases first : (correlator.lag planner reference samples index).result with
          | error cause => simp [lagLog, read, first, Event.fetches]
          | ok offset => simp [lagLog, read, first, Event.fetches, ih]

namespace Work

variable {settings : Settings} {streams : ℕ} {phase : Phase} {work : Work ρ C π}
  {position : ρ → ℕ}

theorem correlate_fit (kept : planner.KeepsSizes)
    (fit : work.synchronizer.Fit settings streams phase) :
    (work.correlate planner).2.synchronizer.Fit settings streams phase := by
  cases buffers : work.synchronizer.buffers with
  | nil =>
      simp only [correlate, buffers]
      exact fit
  | cons first rest =>
      obtain ⟨format, size⟩ := fit.sizes first (by simp [buffers])
      cases first with
      | complex reference =>
          have others : ∀ buffer ∈ rest, buffer.format = .complex ∧ buffer.size = settings.length :=
            fun buffer member => fit.sizes buffer (by simp [buffers, member])
          obtain ⟨sameReference, sameLength, sameSizes⟩ :=
            measureLags_sizes kept work.synchronizer.correlator reference 1 others
          have paired := fit.paired
          rw [buffers] at paired
          simp only [correlate, buffers, Buffer.samples]
          refine ⟨fit.fixed, fit.stage, ?_, ?_, fit.columns⟩
          · rw [List.length_cons, sameLength]
            exact paired
          · simp only [List.mem_cons, forall_eq_or_imp]
            exact ⟨⟨rfl, sameReference.trans size⟩, sameSizes⟩
      | unsigned8 pairs => cases format
      | signed8 pairs => cases format
      | signed16 pairs => cases format

theorem correlate_moved (planner : Planner C π) (work : Work ρ C π) :
    Moved position 0 work (work.correlate planner).2 := by
  unfold correlate
  repeat' split
  · exact .still rfl rfl
  · exact .still rfl rfl
  · exact .still rfl rfl

theorem correlateLog_zero (paired : work.synchronizer.buffers.length = streams) {offsets : List ℤ}
    (measured : (work.correlate planner).1 = .ok offsets) (zero : ∀ offset ∈ offsets, offset = 0) :
    work.correlateLog planner =
      (List.range' 1 (streams - 1)).map fun stream => .lag stream (some 0) (.ok 0) := by
  cases buffers : work.synchronizer.buffers with
  | nil =>
      rw [buffers] at paired
      subst paired
      simp [correlateLog, buffers]
  | cons first rest =>
      rw [buffers, List.length_cons] at paired
      cases read : first.samples with
      | error cause => simp [correlate, buffers, read] at measured
      | ok reference =>
          simp only [correlate, buffers, read] at measured
          cases lags : (measureLags planner work.synchronizer.correlator reference 1 rest).result with
          | error cause => simp [lags, Except.map] at measured
          | ok others =>
              simp only [lags, Except.map, Except.ok.injEq] at measured
              subst measured
              have rest := lagLog_zero lags fun offset member => zero offset (by simp [member])
              simp only [correlateLog, buffers, read, rest]
              rw [← paired, Nat.add_sub_cancel]

theorem fetches_correlateLog (planner : Planner C π) (work : Work ρ C π) :
    (work.correlateLog planner).countP Event.fetches = 0 := by
  unfold correlateLog
  repeat' split
  · rfl
  · rfl
  · exact fetches_lagLog _ _ _ _ _

variable [Source ρ C]

theorem fetched_fit (honest : Source.Honest (C := C) position)
    (fit : work.synchronizer.Fit settings streams phase) :
    work.fetched.synchronizer.Fit settings streams phase := by
  obtain ⟨sameLength, sameSizes⟩ := honest.fillAll_view .measuring work.sources fit.sizes
  exact ⟨fit.fixed, fit.stage, sameLength.trans fit.paired, sameSizes, fit.columns⟩

theorem fetched_moved (honest : Source.Honest (C := C) position)
    (fit : work.synchronizer.Fit settings streams phase)
    (filled : work.gathered.outcome = .ok ()) :
    Moved position settings.length work work.fetched := by
  have moved := honest.fillAll_counted (fun buffer member => (fit.sizes buffer member).2) filled
  have streams : work.fetched.sources.length = work.sources.length := by
    have counted := congrArg List.length moved
    rwa [List.length_map, List.length_map] at counted
  refine ⟨streams, fun stream inside => ?_⟩
  have own : work.fetched.place position stream = work.place position stream + settings.length := by
    rw [place, place]
    change ((work.gathered.sources.map position)[stream]?).getD 0 = _
    rw [gathered, moved]
    simp [inside]
  rw [own]
  rfl

theorem trial_ok {offsets : List ℤ} (found : (work.trial planner).1 = .ok offsets) :
    work.gathered.outcome = .ok () ∧ (work.fetched.correlate planner).1 = .ok offsets ∧
      (work.trial planner).2 = (work.fetched.correlate planner).2 := by
  cases filled : work.gathered.outcome with
  | error failure => simp [trial_eq, filled] at found
  | ok _ =>
      simp only [trial_eq, filled] at found
      refine ⟨rfl, ?_, by simp only [trial_eq, filled]⟩
      cases measured : (work.fetched.correlate planner).1 with
      | error cause => simp [measured, Outcome.ofResult] at found
      | ok others =>
          simp only [measured, Outcome.ofResult, Except.ok.injEq] at found
          exact congrArg Except.ok found

theorem trial_fit (honest : Source.Honest (C := C) position) (kept : planner.KeepsSizes)
    (fit : work.synchronizer.Fit settings streams phase) :
    (work.trial planner).2.synchronizer.Fit settings streams phase := by
  rw [trial_eq]
  cases work.gathered.outcome with
  | error failure => exact fetched_fit honest fit
  | ok _ => exact correlate_fit kept (fetched_fit honest fit)

theorem trial_moved (honest : Source.Honest (C := C) position)
    (fit : work.synchronizer.Fit settings streams phase) {offsets : List ℤ}
    (found : (work.trial planner).1 = .ok offsets) :
    Moved position settings.length work (work.trial planner).2 := by
  obtain ⟨filled, _, next⟩ := trial_ok found
  rw [next]
  exact (fetched_moved honest fit filled).trans (correlate_moved planner _)

theorem trialLog_ok {offsets : List ℤ} (found : (work.trial planner).1 = .ok offsets) :
    work.trialLog planner = .fetch (.ok ()) :: work.fetched.correlateLog planner := by
  obtain ⟨filled, _, _⟩ := trial_ok found
  simp only [trialLog, filled]

theorem fetches_trialLog {offsets : List ℤ} (found : (work.trial planner).1 = .ok offsets) :
    (work.trialLog planner).countP Event.fetches = 1 := by
  rw [trialLog_ok found, List.countP_cons_of_pos rfl, fetches_correlateLog]

theorem measure_fit (honest : Source.Honest (C := C) position) (kept : planner.KeepsSizes)
    (trials : ℕ) (agreed : Option (List ℤ))
    (fit : work.synchronizer.Fit settings streams phase) :
    (work.measure planner trials agreed).2.synchronizer.Fit settings streams phase := by
  induction trials generalizing agreed work with
  | zero => exact fit
  | succ trials ih =>
      have later := trial_fit honest kept fit
      cases live : work.cancelled with
      | true => simpa [measure, live] using fit
      | false =>
          cases trial : work.trial planner with
          | mk outcome next =>
              rw [trial] at later
              cases outcome with
              | error failure => simpa [measure, live, trial] using later
              | ok offsets =>
                  cases agreed with
                  | none => simpa [measure, live, trial] using ih _ later
                  | some first =>
                      by_cases same : first = offsets
                      · simpa [measure, live, trial, same] using ih _ later
                      · simpa [measure, live, trial, same] using later

theorem measure_succ {trials : ℕ} {agreed result : Option (List ℤ)}
    (found : (work.measure planner (trials + 1) agreed).1 = .ok result) :
    work.cancelled = false ∧ ∃ offsets, (work.trial planner).1 = .ok offsets ∧
      ((agreed.getD offsets = offsets ∧
          work.measure planner (trials + 1) agreed =
            (work.trial planner).2.measure planner trials (some offsets) ∧
          work.measureLog planner (trials + 1) agreed =
            .poll false :: work.trialLog planner ++
              (work.trial planner).2.measureLog planner trials (some offsets)) ∨
        (result = none ∧
          (work.measure planner (trials + 1) agreed).2 = (work.trial planner).2 ∧
          work.measureLog planner (trials + 1) agreed = .poll false :: work.trialLog planner)) := by
  cases live : work.cancelled with
  | true => simp [measure, live, Outcome.fail] at found
  | false =>
      refine ⟨rfl, ?_⟩
      cases trial : work.trial planner with
      | mk outcome next =>
          cases outcome with
          | error failure => simp [measure, live, trial] at found
          | ok offsets =>
              refine ⟨offsets, rfl, ?_⟩
              cases agreed with
              | none => exact .inl ⟨rfl, by simp [measure, live, trial],
                  by simp [measureLog, live, trial]⟩
              | some first =>
                  by_cases same : first = offsets
                  · subst same
                    exact .inl ⟨rfl, by simp [measure, live, trial],
                      by simp [measureLog, live, trial]⟩
                  · refine .inr ⟨?_, by simp [measure, live, trial, same],
                      by simp [measureLog, live, trial, same]⟩
                    simpa [measure, live, trial, same] using found.symm

/-- A round that has not failed moves every source by one buffer for each of its trials. -/
theorem measure_moved (honest : Source.Honest (C := C) position) (kept : planner.KeepsSizes)
    {trials : ℕ} {agreed result : Option (List ℤ)}
    (fit : work.synchronizer.Fit settings streams phase)
    (found : (work.measure planner trials agreed).1 = .ok result) :
    Moved position ((work.measureLog planner trials agreed).countP Event.fetches * settings.length)
      work (work.measure planner trials agreed).2 := by
  induction trials generalizing agreed work with
  | zero =>
      rw [measureLog, List.countP_nil, Nat.zero_mul]
      exact .still rfl rfl
  | succ trials ih =>
      obtain ⟨_, offsets, trial, rest⟩ := measure_succ found
      have first := trial_moved honest fit trial
      have count := fetches_trialLog trial
      rcases rest with ⟨_, next, log⟩ | ⟨_, next, log⟩
      · have later := ih (trial_fit honest kept fit) (next ▸ found)
        rw [next, log, List.cons_append, List.countP_cons_of_neg Bool.false_ne_true,
          List.countP_append, count,
          Nat.add_mul, Nat.one_mul]
        exact first.trans later
      · rw [next, log, List.countP_cons_of_neg Bool.false_ne_true, count, Nat.one_mul]
        exact first

theorem measure_agreed {trials : ℕ} {first offsets : List ℤ}
    (found : (work.measure planner trials (some first)).1 = .ok (some offsets)) :
    offsets = first := by
  induction trials generalizing work first with
  | zero =>
      cases found
      rfl
  | succ trials ih =>
      obtain ⟨_, others, _, ⟨same, next, _⟩ | ⟨none, _⟩⟩ := measure_succ found
      · rw [next] at found
        exact (ih found).trans same.symm
      · cases none

theorem measureLog_zero (honest : Source.Honest (C := C) position) (kept : planner.KeepsSizes)
    {trials : ℕ} {agreed : Option (List ℤ)} {offsets : List ℤ}
    (fit : work.synchronizer.Fit settings streams phase)
    (found : (work.measure planner trials agreed).1 = .ok (some offsets))
    (zero : ∀ offset ∈ offsets, offset = 0) :
    work.measureLog planner trials agreed =
      (List.replicate trials (agreeingTrial streams)).flatten := by
  induction trials generalizing agreed work with
  | zero => rfl
  | succ trials ih =>
      obtain ⟨_, others, trial, ⟨_, next, log⟩ | ⟨none, _⟩⟩ := measure_succ found
      · rw [next] at found
        obtain rfl := measure_agreed found
        obtain ⟨_, measured, _⟩ := trial_ok trial
        rw [log, trialLog_ok trial, correlateLog_zero (fetched_fit honest fit).paired measured zero,
          ih (trial_fit honest kept fit) found, List.replicate_succ, List.flatten_cons]
        rfl
      · cases none

end Work

end Measuring

namespace Work

variable [Source ρ C] {settings : Settings} {streams : ℕ} {phase : Phase} {work : Work ρ C π}
  {position : ρ → ℕ}

section Draining

variable [Zero C]

theorem discard_fit (index count : ℕ) (fit : work.synchronizer.Fit settings streams phase) :
    (work.discard index count).2.synchronizer.Fit settings streams phase := by
  have ways := work.discards index count
  generalize work.discard index count = result at ways ⊢
  cases ways with
  | absent none => exact fit
  | failed source failure own skip => exact fit
  | done source own skip =>
      exact ⟨fit.fixed, fit.stage, fit.paired, fit.sizes, by simp [reporting, passed, fit.columns]⟩

theorem discard_moved (honest : Source.Honest (C := C) position) {index count : ℕ}
    (columns : work.synchronizer.report.drained.length = work.sources.length)
    (done : (work.discard index count).1 = .ok ()) :
    Moved position 0 work (work.discard index count).2 := by
  have ways := work.discards index count
  generalize work.discard index count = result at ways done ⊢
  cases ways with
  | absent none => cases done
  | failed source failure own skip => cases failure <;> cases done
  | done source own skip =>
      have moved := honest.skip_counted skip
      obtain ⟨inside, same⟩ := List.getElem?_eq_some_iff.mp own
      refine ⟨by simp [reporting, passed], fun stream bound => ?_⟩
      have column : stream < work.synchronizer.report.drained.length := columns ▸ bound
      by_cases mine : index = stream
      · subst mine
        simp [place, skipped, reporting, passed, inside, column, same, moved]
        omega
      · simp [place, skipped, reporting, passed, mine, bound, column]

variable {log : List Event} {result : Outcome Unit × Work ρ C π}

theorem Discarding.fit (discarding : Discarding work log result)
    (fit : work.synchronizer.Fit settings streams phase) :
    result.2.synchronizer.Fit settings streams phase := by
  induction discarding with
  | done => exact fit
  | stuck index count failed =>
      have next := discard_fit index count fit
      rwa [failed] at next
  | onward index count skipped _ ih =>
      have next := discard_fit index count fit
      rw [skipped] at next
      exact ih next

theorem Discarding.moved (discarding : Discarding work log result)
    (honest : Source.Honest (C := C) position)
    (fit : work.synchronizer.Fit settings streams phase) (paired : work.sources.length = streams)
    (done : result.1 = .ok ()) : Moved position 0 work result.2 := by
  induction discarding with
  | done => exact .still rfl rfl
  | stuck => cases done
  | onward index count skipped _ ih =>
      have next := discard_fit index count fit
      have first := discard_moved honest (fit.columns.trans paired.symm)
        (congrArg Prod.fst skipped)
      rw [skipped] at next first
      exact first.trans (ih next (first.streams.trans paired) done)

theorem drained_fit (fit : work.synchronizer.Fit settings streams phase) {offsets : List ℤ}
    {outcome : Outcome Unit} {next : Work ρ C π}
    (drained : (work.inPhase .measuring).drain offsets = (outcome, next)) :
    next.synchronizer.Fit settings streams .measuring := by
  have after := ((work.inPhase .measuring).drain_discarding offsets).fit
    (inPhase_fit fit .measuring)
  rwa [drained] at after

theorem drain_moved (honest : Source.Honest (C := C) position) {offsets : List ℤ}
    (fit : work.synchronizer.Fit settings streams phase) (paired : work.sources.length = streams)
    (done : (work.drain offsets).1 = .ok ()) :
    Moved position 0 work (work.drain offsets).2 ∧
      (work.drainLog offsets).countP Event.fetches = 0 :=
  have discarding := work.drain_discarding offsets
  ⟨discarding.moved honest fit paired done, discarding.fetches⟩

end Draining

end Work

end Wideband.Lock
