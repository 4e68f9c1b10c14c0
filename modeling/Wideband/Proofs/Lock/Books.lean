import Wideband.Proofs.Lock.Custody

namespace Wideband.Lock

/-!
The books of a lock against its log. Every operation, however it ends, begins as many rounds as its
log shows, rejects no more rounds than it begins, enters for each stream exactly the samples of the
skips that were completed (`Work.Balanced`), and fetches no more buffers in a round than the round
has trials (`Paced`). Nothing is asked of the sources or of the transforms.
-/

variable {ρ C R π : Type}

namespace Event

def begins : Event → Bool
  | .round => true
  | _ => false

/-- The samples of a stream that have been skipped for good with an event. -/
def discarded (stream : ℕ) : Event → ℕ
  | .skip index count (.ok ()) => if index = stream then count else 0
  | _ => 0

def Measures : Event → Prop
  | .round => False
  | .skip _ _ _ => False
  | _ => True

end Event

def rounds (log : List Event) : ℕ :=
  log.countP Event.begins

def discarded (stream : ℕ) (log : List Event) : ℕ :=
  (log.map (Event.discarded stream)).sum

theorem rounds_append (log later : List Event) :
    rounds (log ++ later) = rounds log + rounds later :=
  List.countP_append

theorem discarded_append (stream : ℕ) (log later : List Event) :
    discarded stream (log ++ later) = discarded stream log + discarded stream later := by
  simp [discarded]

/-- A log that fetches at most `trials` times in each round, and at most `left` times before the
first one begins. -/
def Paced (trials : ℕ) : ℕ → List Event → Prop
  | _, [] => True
  | _, .round :: rest => Paced trials trials rest
  | left, .fetch _ :: rest => 0 < left ∧ Paced trials (left - 1) rest
  | left, _ :: rest => Paced trials left rest

namespace Paced

variable {trials left : ℕ} {log later : List Event}

theorem more {extra : ℕ} (paced : Paced trials left log) (enough : left ≤ extra) :
    Paced trials extra log := by
  induction log generalizing left extra with
  | nil => trivial
  | cons event log ih =>
      cases event with
      | round => exact paced
      | fetch outcome => exact ⟨by have := paced.1; omega, ih paced.2 (by omega)⟩
      | poll cancelled => exact ih paced enough
      | lag stream peak offset => exact ih paced enough
      | skip stream count outcome => exact ih paced enough

theorem append (first : Paced trials left log) (second : Paced trials 0 later) :
    Paced trials left (log ++ later) := by
  induction log generalizing left with
  | nil => exact second.more (Nat.zero_le left)
  | cons event log ih =>
      cases event with
      | round => exact ih first
      | fetch outcome => exact ⟨first.1, ih first.2⟩
      | poll cancelled => exact ih first
      | lag stream peak offset => exact ih first
      | skip stream count outcome => exact ih first

theorem of_fetches (few : log.countP Event.fetches ≤ left) (within : left ≤ trials) :
    Paced trials left log := by
  induction log generalizing left with
  | nil => trivial
  | cons event log ih =>
      rw [List.countP_cons] at few
      cases event with
      | round => exact ih (by simp only [Event.fetches] at few; omega) (Nat.le_refl trials)
      | fetch outcome =>
          simp only [Event.fetches, if_true] at few
          exact ⟨by omega, ih (by omega) (by omega)⟩
      | poll cancelled => exact ih (by simpa [Event.fetches] using few) within
      | lag stream peak offset => exact ih (by simpa [Event.fetches] using few) within
      | skip stream count outcome => exact ih (by simpa [Event.fetches] using few) within

end Paced

namespace Work

/-- What an operation with the given log enters into the books. -/
structure Balanced (log : List Event) (work next : Work ρ C π) : Prop where
  settings : next.synchronizer.settings = work.synchronizer.settings
  buffers : next.synchronizer.buffers.length = work.synchronizer.buffers.length
  sources : next.sources.length = work.sources.length
  columns : next.synchronizer.report.drained.length = work.synchronizer.report.drained.length
  attempts : next.synchronizer.report.attempts = work.synchronizer.report.attempts + rounds log
  rejected : next.synchronizer.report.rejected + work.synchronizer.report.attempts ≤
    work.synchronizer.report.rejected + next.synchronizer.report.attempts
  drained : ∀ stream, next.skipped stream = work.skipped stream + discarded stream log

structure Booked (log : List Event) (work next : Work ρ C π) : Prop extends
    Balanced log work next where
  phase : next.synchronizer.phase = work.synchronizer.phase
  begun : rounds log = 0

variable {work next last : Work ρ C π} {log later : List Event}

theorem Balanced.still (settings : next.synchronizer.settings = work.synchronizer.settings)
    (buffers : next.synchronizer.buffers.length = work.synchronizer.buffers.length)
    (sources : next.sources.length = work.sources.length)
    (report : next.synchronizer.report = work.synchronizer.report) : Balanced [] work next where
  settings := settings
  buffers := buffers
  sources := sources
  columns := by rw [report]
  attempts := by
    rw [report]
    rfl
  rejected := by rw [report]
  drained stream := by
    rw [skipped, skipped, report]
    rfl

theorem begun_balanced (work : Work ρ C π) : Balanced [.round] work work.begun where
  settings := rfl
  buffers := rfl
  sources := rfl
  columns := rfl
  attempts := rfl
  rejected := Nat.add_le_add_left (Nat.le_succ _) _
  drained _ := rfl

theorem polled_balanced (work : Work ρ C π) (cancelled : Bool) (phase : Phase) :
    Balanced [.poll cancelled] work (work.inPhase phase) where
  settings := rfl
  buffers := rfl
  sources := rfl
  columns := rfl
  attempts := rfl
  rejected := Nat.le_refl _
  drained _ := rfl

theorem Balanced.trans (first : Balanced log work next) (second : Balanced later next last) :
    Balanced (log ++ later) work last where
  settings := second.settings.trans first.settings
  buffers := second.buffers.trans first.buffers
  sources := second.sources.trans first.sources
  columns := second.columns.trans first.columns
  attempts := by
    rw [second.attempts, first.attempts, rounds_append]
    omega
  rejected := by
    have before := first.rejected
    have after := second.rejected
    omega
  drained stream := by
    rw [second.drained, first.drained, discarded_append]
    omega

theorem Booked.trans (first : Booked log work next) (second : Booked later next last) :
    Booked (log ++ later) work last :=
  ⟨first.toBalanced.trans second.toBalanced, second.phase.trans first.phase,
    by rw [rounds_append, first.begun, second.begun]⟩

theorem discarded_of_measures (measures : ∀ event ∈ log, event.Measures) (stream : ℕ) :
    discarded stream log = 0 := by
  refine List.sum_eq_zero fun count member => ?_
  obtain ⟨event, inside, rfl⟩ := List.mem_map.mp member
  have measuring := measures event inside
  cases event <;> simp_all [Event.Measures, Event.discarded]

theorem Booked.of_measures (booked : Booked [] work next)
    (measures : ∀ event ∈ log, event.Measures) : Booked log work next := by
  have none : rounds log = 0 := by
    refine List.countP_eq_zero.mpr fun event member => ?_
    have measuring := measures event member
    cases event <;> simp_all [Event.Measures, Event.begins]
  exact ⟨⟨booked.settings, booked.buffers, booked.sources, booked.columns,
    by rw [none]; exact booked.attempts, booked.rejected,
    fun stream => by rw [discarded_of_measures measures]; exact booked.drained stream⟩,
    booked.phase, none⟩

section Measuring

variable [Component R] [Sample C R]

theorem length_measureLags (planner : Planner C π) (correlator : Correlator C π)
    (reference : Array C) (index : ℕ) (buffers : List (Buffer C)) :
    (measureLags planner correlator reference index buffers).buffers.length = buffers.length := by
  induction buffers generalizing correlator reference index with
  | nil => rfl
  | cons buffer buffers ih =>
      unfold measureLags
      split
      · rfl
      · dsimp only
        split
        · rfl
        · simp only [List.length_cons, ih]

theorem correlate_booked (planner : Planner C π) (work : Work ρ C π) :
    Booked [] work (work.correlate planner).2 := by
  unfold correlate
  split
  · exact ⟨.still rfl rfl rfl rfl, rfl, rfl⟩
  · rename_i first rest buffers
    split
    · exact ⟨.still rfl rfl rfl rfl, rfl, rfl⟩
    · refine ⟨.still rfl ?_ rfl rfl, rfl, rfl⟩
      rw [buffers, List.length_cons, List.length_cons, length_measureLags]

theorem measures_correlateLog (planner : Planner C π) (work : Work ρ C π) :
    ∀ event ∈ work.correlateLog planner, event.Measures := by
  have lags (correlator : Correlator C π) (reference : Array C) (index : ℕ)
      (buffers : List (Buffer C)) :
      ∀ event ∈ lagLog planner correlator reference index buffers, event.Measures := by
    induction buffers generalizing correlator reference index with
    | nil => simp [lagLog]
    | cons buffer buffers ih =>
        unfold lagLog
        split
        · simp
        · dsimp only
          split
          · simp [Event.Measures]
          · simpa [Event.Measures] using ih _ _ _
  unfold correlateLog
  split
  · simp
  split
  · simp
  · exact lags _ _ _ _

variable [Source ρ C]

theorem fetched_booked (work : Work ρ C π) : Booked [] work work.fetched := by
  refine ⟨.still rfl ?_ work.fetched_later.worn.length_eq.symm rfl, rfl, rfl⟩
  change (Source.fillAll .measuring work.sources work.synchronizer.buffers).buffers.length = _
  unfold Source.fillAll
  split
  · rename_i paired
    simp [paired]
  · rfl

theorem trial_booked (planner : Planner C π) (work : Work ρ C π) :
    Booked [] work (work.trial planner).2 := by
  rw [trial_eq]
  split
  · exact work.fetched_booked
  · exact work.fetched_booked.trans (work.fetched.correlate_booked planner)

theorem measures_trialLog (planner : Planner C π) (work : Work ρ C π) :
    ∀ event ∈ work.trialLog planner, event.Measures := by
  unfold trialLog
  split
  · simp [Event.Measures]
  · simpa [Event.Measures] using work.fetched.measures_correlateLog planner

theorem fetches_trialLog_le (planner : Planner C π) (work : Work ρ C π) :
    (work.trialLog planner).countP Event.fetches ≤ 1 := by
  unfold trialLog
  split
  · exact List.countP_le_length
  · rw [List.countP_cons, fetches_correlateLog]
    exact Nat.le_refl 1

theorem measure_silent (planner : Planner C π) (trials : ℕ) (agreed : Option (List ℤ))
    (work : Work ρ C π) : Booked [] work (work.measure planner trials agreed).2 := by
  induction trials generalizing agreed work with
  | zero => exact ⟨.still rfl rfl rfl rfl, rfl, rfl⟩
  | succ trials ih =>
      have first := work.trial_booked planner
      unfold measure
      split
      · exact ⟨.still rfl rfl rfl rfl, rfl, rfl⟩
      split
      · rename_i failure next tried
        rwa [tried] at first
      · rename_i offsets next tried
        rw [tried] at first
        split
        · exact first.trans (ih _ next)
        split
        · exact first.trans (ih _ next)
        · exact first

theorem measureLog_measures (planner : Planner C π) (trials : ℕ) (agreed : Option (List ℤ))
    (work : Work ρ C π) :
    (∀ event ∈ work.measureLog planner trials agreed, event.Measures) ∧
      (work.measureLog planner trials agreed).countP Event.fetches ≤ trials := by
  induction trials generalizing agreed work with
  | zero => simp [measureLog]
  | succ trials ih =>
      have first := work.measures_trialLog planner
      have once := work.fetches_trialLog_le planner
      have whole (rest : List Event) (measures : ∀ event ∈ rest, event.Measures)
          (few : rest.countP Event.fetches ≤ trials) :
          (∀ event ∈ .poll work.cancelled :: (work.trialLog planner ++ rest), event.Measures) ∧
            (.poll work.cancelled :: (work.trialLog planner ++ rest)).countP Event.fetches ≤
              trials + 1 := by
        refine ⟨?_, ?_⟩
        · intro event member
          rcases List.mem_cons.mp member with rfl | member
          · trivial
          rcases List.mem_append.mp member with member | member
          · exact first event member
          · exact measures event member
        · rw [List.countP_cons_of_neg Bool.false_ne_true, List.countP_append]
          omega
      unfold measureLog
      split
      · exact ⟨by simp [Event.Measures], by simp [Event.fetches]⟩
      split
      · exact whole [] (by simp) (by simp)
      · rename_i offsets next tried
        split
        · exact whole _ (ih _ next).1 (ih _ next).2
        split
        · exact whole _ (ih _ next).1 (ih _ next).2
        · exact whole [] (by simp) (by simp)

theorem measure_booked (planner : Planner C π) (trials : ℕ) (agreed : Option (List ℤ))
    (work : Work ρ C π) :
    Booked (work.measureLog planner trials agreed) work (work.measure planner trials agreed).2 :=
  (work.measure_silent planner trials agreed).of_measures
    (work.measureLog_measures planner trials agreed).1

end Measuring

section Draining

variable [Zero C] [Source ρ C]

theorem discard_booked (index count : ℕ)
    (paired : work.sources.length = work.synchronizer.report.drained.length) :
    Booked [.skip index count (work.discard index count).1] work (work.discard index count).2 := by
  have ways := work.discards index count
  generalize work.discard index count = result at ways ⊢
  cases ways with
  | absent none => exact ⟨⟨rfl, rfl, rfl, rfl, rfl, Nat.le_refl _, fun _ => rfl⟩, rfl, rfl⟩
  | failed source failure own skip =>
      cases failure <;>
        exact ⟨⟨rfl, rfl, List.length_set, rfl, rfl, Nat.le_refl _, fun _ => rfl⟩, rfl, rfl⟩
  | done source own skip =>
      obtain ⟨inside, _⟩ := List.getElem?_eq_some_iff.mp own
      refine ⟨⟨rfl, rfl, List.length_set, List.length_modify _ _ _, rfl, Nat.le_refl _,
        fun stream => ?_⟩, rfl, rfl⟩
      have one : discarded stream [.skip index count (.ok ())] =
          if index = stream then count else 0 := by
        simp [discarded, Event.discarded]
      rw [one, skipped, skipped]
      simp only [reporting, passed]
      rw [List.getElem?_modify]
      split
      · rename_i same
        subst same
        simp [paired ▸ inside]
      · simp

theorem Discarding.booked {log : List Event} {result : Outcome Unit × Work ρ C π}
    (discarding : Discarding work log result)
    (paired : work.sources.length = work.synchronizer.report.drained.length) :
    Booked log work result.2 := by
  induction discarding with
  | done => exact ⟨.still rfl rfl rfl rfl, rfl, rfl⟩
  | stuck index count failed =>
      have first := discard_booked index count paired
      rwa [failed] at first
  | onward index count skipped _ ih =>
      have first := discard_booked index count paired
      rw [skipped] at first
      exact first.trans (ih (first.sources.trans (paired.trans first.columns.symm)))

theorem draining_booked (offsets : List ℤ)
    (paired : work.sources.length = work.synchronizer.report.drained.length) :
    Booked ((work.inPhase .measuring).drainLog offsets) (work.inPhase .measuring)
        ((work.inPhase .measuring).drain offsets).2 ∧
      ((work.inPhase .measuring).drainLog offsets).countP Event.fetches = 0 := by
  have inside : (work.inPhase .measuring).sources.length =
    (work.inPhase .measuring).synchronizer.report.drained.length := paired
  have discarding := (work.inPhase .measuring).drain_discarding offsets
  exact ⟨discarding.booked inside, discarding.fetches⟩

end Draining

variable [Component R] [Sample C R] [Source ρ C]

theorem step_balanced (planner : Planner C π)
    (paired : work.sources.length = work.synchronizer.report.drained.length) :
    Balanced (work.stepLog planner) work (work.step planner).2 := by
  have trials := work.begun.measure_booked planner work.synchronizer.settings.trials none
  have drained (offsets : List ℤ) :
      Balanced (.poll false :: (work.inPhase .measuring).drainLog offsets) work
        ((work.inPhase .measuring).drain offsets).2 :=
    (work.polled_balanced false .measuring).trans (draining_booked offsets paired).1.toBalanced
  have way := stepped planner work
  generalize work.step planner = went at way ⊢
  generalize work.stepLog planner = log at way ⊢
  cases way with
  | gaveUp measuring => exact .still rfl rfl rfl rfl
  | finished locked => exact .still rfl rfl rfl rfl
  | halted offsets draining => exact work.polled_balanced true .measuring
  | settled offsets draining zero => exact work.polled_balanced false .locked
  | broke measuring failure next measured =>
      rw [measured] at trials
      exact work.begun_balanced.trans trials.toBalanced
  | agreed measuring offsets next measured =>
      rw [measured] at trials
      obtain ⟨settings, buffers, sources, columns, attempts, rejected, drained⟩ :=
        work.begun_balanced.trans trials.toBalanced
      exact ⟨settings, buffers, sources, columns, attempts, rejected, drained⟩
  | rejected measuring next measured =>
      rw [measured] at trials
      obtain ⟨settings, buffers, sources, columns, attempts, _, drained⟩ :=
        work.begun_balanced.trans trials.toBalanced
      refine ⟨settings, buffers, sources, columns, attempts, ?_, drained⟩
      have few : next.synchronizer.report.rejected + (work.synchronizer.report.attempts + 1) ≤
          work.synchronizer.report.rejected + next.synchronizer.report.attempts := trials.rejected
      change next.synchronizer.report.rejected + 1 + work.synchronizer.report.attempts ≤
        work.synchronizer.report.rejected + next.synchronizer.report.attempts
      omega
  | stuck offsets draining failure next ended =>
      have after := drained offsets
      rwa [ended] at after
  | drained offsets draining next ended =>
      have after := drained offsets
      rwa [ended] at after

theorem stepLog_paced (planner : Planner C π) (work : Work ρ C π)
    (paired : work.sources.length = work.synchronizer.report.drained.length) :
    Paced work.synchronizer.settings.trials 0 (work.stepLog planner) := by
  have once := (work.begun.measureLog_measures planner work.synchronizer.settings.trials none).2
  unfold stepLog
  split
  · split
    · trivial
    · have paced : Paced work.synchronizer.settings.trials work.synchronizer.settings.trials
          (work.begun.measureLog planner work.synchronizer.settings.trials none) :=
        .of_fetches once (Nat.le_refl _)
      exact paced
  · rename_i offsets draining
    split
    · trivial
    split
    · trivial
    · have paced : Paced work.synchronizer.settings.trials 0
          ((work.inPhase .measuring).drainLog offsets) :=
        .of_fetches (Nat.le_of_eq (draining_booked offsets paired).2) (Nat.zero_le _)
      exact paced
  · trivial

theorem stepsFor_balanced (planner : Planner C π) (steps : ℕ)
    (paired : work.sources.length = work.synchronizer.report.drained.length) :
    Balanced (work.stepsLog planner steps) work (work.stepsFor planner steps).2 ∧
      Paced work.synchronizer.settings.trials 0 (work.stepsLog planner steps) := by
  induction steps generalizing work with
  | zero => exact ⟨.still rfl rfl rfl rfl, trivial⟩
  | succ steps ih =>
      have first := step_balanced planner paired
      have paced := work.stepLog_paced planner paired
      unfold stepsFor stepsLog
      cases went : work.step planner with
      | mk progress next =>
          rw [went] at first
          cases progress with
          | ended outcome =>
              simp only [List.append_nil]
              exact ⟨first, paced⟩
          | ongoing =>
              obtain ⟨rest, later⟩ := ih (first.sources.trans (paired.trans first.columns.symm))
              rw [first.settings] at later
              exact ⟨first.trans rest, paced.append later⟩

end Work

end Wideband.Lock
