import Wideband.Proofs.Lock.Backing

namespace Wideband.Lock

/-!
The life of a synchronizer over any number of runs, each with sources and a token of its own. With a
limit every run ends, since a step either begins one of the rounds that are left or comes closer to
one (`Work.Ends`), and all runs together begin no more rounds than the limit allows. Between runs
no offsets wait to be drained, the report tells what all runs have done, and once locked a
synchronizer answers with its report and touches nothing (`Synchronizer.History.lifetime`).
-/

variable {ρ C R π : Type} [Component R] [Sample C R]

theorem rounds_round (log : List Event) : rounds (.round :: log) = rounds log + 1 :=
  List.countP_cons_of_pos rfl

namespace Work

variable [Source ρ C] {planner : Planner C π} {work next last : Work ρ C π} {limit : ℕ}

inductive Ends (planner : Planner C π) : Work ρ C π → Outcome Report → Work ρ C π → Prop where
  | now {work last : Work ρ C π} {outcome : Outcome Report}
      (went : work.step planner = (.ended outcome, last)) : Ends planner work outcome last
  | later {work next last : Work ρ C π} {outcome : Outcome Report}
      (went : work.step planner = (.ongoing, next)) (rest : Ends planner next outcome last) :
      Ends planner work outcome last

omit [Component R] [Sample C R] [Source ρ C] in
theorem attempts_lt (limited : work.synchronizer.settings.maxAttempts = some limit)
    (more : work.exhausted = false) : work.synchronizer.report.attempts < limit := by
  simpa [exhausted, limited] using more

theorem rounds_stepLog (planner : Planner C π)
    (limited : work.synchronizer.settings.maxAttempts = some limit)
    (paired : work.sources.length = work.synchronizer.report.drained.length)
    (within : work.synchronizer.report.attempts ≤ limit) :
    work.synchronizer.report.attempts + rounds (work.stepLog planner) ≤ limit := by
  unfold stepLog
  split
  · split
    · exact within
    · rename_i more
      have left := attempts_lt limited (by simpa using more)
      have trials := work.begun.measure_booked planner work.synchronizer.settings.trials none
      rw [rounds_round, trials.begun]
      omega
  · rename_i offsets draining
    split
    · exact within
    split
    · exact within
    · have none : rounds (.poll work.cancelled :: (work.inPhase .measuring).drainLog offsets) = 0 :=
        (draining_booked offsets paired).1.begun
      omega
  · exact within

theorem stepsFor_within (planner : Planner C π) (steps : ℕ)
    (limited : work.synchronizer.settings.maxAttempts = some limit)
    (paired : work.sources.length = work.synchronizer.report.drained.length)
    (within : work.synchronizer.report.attempts ≤ limit) :
    (work.stepsFor planner steps).2.synchronizer.report.attempts ≤ limit := by
  induction steps generalizing work with
  | zero => exact within
  | succ steps ih =>
      have first := step_balanced planner paired
      have few := rounds_stepLog planner limited paired within
      unfold stepsFor
      cases went : work.step planner with
      | mk progress next =>
          rw [went] at first
          rw [← first.attempts] at few
          cases progress with
          | ended outcome => exact few
          | ongoing =>
              exact ih (by rw [first.settings, limited])
                (first.sources.trans (paired.trans first.columns.symm)) few

inductive Left : Outcome Report → Work ρ C π → Prop where
  | locked {last : Work ρ C π} (phase : last.synchronizer.phase = .locked) :
      Left (.ok last.synchronizer.report) last
  | measuring {last : Work ρ C π} (cause : Error) (phase : last.synchronizer.phase = .measuring) :
      Left (.error (.error cause)) last

theorem stepsFor_left {steps : ℕ} {outcome : Outcome Report}
    (paired : work.sources.length = work.synchronizer.report.drained.length)
    (ended : work.stepsFor planner steps = (outcome, last)) (returned : outcome ≠ .error .fault) :
    Left outcome last := by
  induction steps generalizing work with
  | zero => cases ended; exact absurd rfl returned
  | succ steps ih =>
      have first := step_balanced planner paired
      have way := stepped planner work
      have trials := work.begun.measure_booked planner work.synchronizer.settings.trials none
      have emptied (offsets : List ℤ) := (draining_booked offsets paired).1.phase
      unfold stepsFor at ended
      generalize work.step planner = went at first way ended
      generalize work.stepLog planner = log at first way
      have inside := first.sources.trans (paired.trans first.columns.symm)
      cases way with
      | gaveUp measuring => cases ended; exact .measuring _ measuring
      | finished locked => cases ended; exact .locked locked
      | halted offsets draining => cases ended; exact .measuring _ rfl
      | settled offsets draining zero => exact ih inside ended
      | agreed measuring offsets next measured => exact ih inside ended
      | rejected measuring next measured => exact ih inside ended
      | drained offsets draining next drained => exact ih inside ended
      | broke measuring failure next measured =>
          rw [measured] at trials
          cases ended
          cases failure with
          | fault => exact absurd rfl returned
          | error cause => exact .measuring cause (trials.phase.trans measuring)
      | stuck offsets draining failure next drained =>
          have phase := emptied offsets
          rw [drained] at phase
          cases ended
          cases failure with
          | fault => exact absurd rfl returned
          | error cause => exact .measuring cause phase

end Work

namespace Synchronizer

structure Call where
  log : List Event
  outcome : Outcome Report

/-- The calls that have returned so far, the earliest first, and the synchronizer that they have
left. Each call may have had other sources. -/
inductive History (planner : Planner C π) (fresh : Synchronizer C π) :
    List Call → Synchronizer C π → Prop where
  | fresh : History planner fresh [] fresh
  | call {calls : List Call} {current : Synchronizer C π}
      (earlier : History planner fresh calls current) {ρ : Type} [Source ρ C] (sources : List ρ)
      (cancelled : Bool) {outcome : Outcome Report} {last : Work ρ C π}
      (ran : current.run planner sources cancelled = (outcome, last))
      (returned : outcome ≠ .error .fault) :
      History planner fresh (calls ++ [⟨current.log planner sources cancelled, outcome⟩])
        last.synchronizer

def logged (calls : List Call) : List Event :=
  calls.flatMap Call.log

variable {planner : Planner C π} {settings : Settings} {streams : ℕ}
  {fresh current : Synchronizer C π} {calls : List Call}

/-- What a synchronizer for so many streams is between calls. -/
structure Kept (settings : Settings) (streams : ℕ) (calls : List Call)
    (current : Synchronizer C π) : Prop where
  fixed : current.settings = settings
  paired : current.buffers.length = streams
  columns : current.report.drained.length = streams
  idle : current.phase = .measuring ∨
    (current.phase = .locked ∧ ∃ call ∈ calls, call.outcome = .ok current.report)
  attempts : current.report.attempts = rounds (logged calls)
  within : ∀ limit, settings.maxAttempts = some limit → current.report.attempts ≤ limit
  rejected : current.report.rejected ≤ current.report.attempts
  drained : ∀ stream, current.report.drained[stream]?.getD 0 = discarded stream (logged calls)
  settled : ∀ call ∈ calls, ∀ report, call.outcome = .ok report →
    current.phase = .locked ∧ current.report = report

omit [Component R] in
theorem prepare_kept (prepared : prepare planner streams settings = .ok fresh) :
    Kept settings streams [] fresh := by
  obtain ⟨fit, _⟩ := prepare_fit prepared
  obtain ⟨_, report⟩ := prepare_report prepared
  refine ⟨fit.fixed, fit.paired, fit.columns, .inl fit.stage, by rw [report]; rfl, ?_, ?_, ?_, ?_⟩
  · intro limit _
    rw [report]
    exact Nat.zero_le limit
  · rw [report]
  · intro stream
    rw [report, List.getElem?_replicate]
    split <;> rfl
  · intro call member
    cases member

section Run

variable [Source ρ C] {sources : List ρ} {cancelled : Bool} {last : Work ρ C π}
  {outcome : Outcome Report}

theorem Kept.streams_accepted (kept : Kept settings streams calls current)
    (accepted : current.checkSources sources = .ok ()) :
    sources.length = current.report.drained.length :=
  (length_checkSources accepted).trans (kept.paired.trans kept.columns.symm)

theorem Kept.balanced (kept : Kept settings streams calls current) (planner : Planner C π)
    (sources : List ρ) (cancelled : Bool) :
    Work.Balanced (current.log planner sources cancelled) ⟨current, sources, cancelled⟩
        (current.run planner sources cancelled).2 ∧
      Paced settings.trials 0 (current.log planner sources cancelled) := by
  unfold run log
  cases accepted : current.checkSources sources with
  | error cause => exact ⟨.still rfl rfl rfl rfl, trivial⟩
  | ok _ =>
      have paired : (Work.mk current sources cancelled).sources.length =
        (Work.mk current sources cancelled).synchronizer.report.drained.length :=
        kept.streams_accepted accepted
      rw [← kept.fixed]
      exact Work.stepsFor_balanced planner current.settings.steps paired

theorem Kept.backed {position : ρ → ℕ} (kept : Kept settings streams calls current)
    (planner : Planner C π) (cancelled : Bool) (honest : Source.Honest (C := C) position) :
    Work.Backed position ⟨current, sources, cancelled⟩ (current.log planner sources cancelled)
      (current.run planner sources cancelled).2 := by
  unfold run log
  cases accepted : current.checkSources sources with
  | error cause => exact .idle (fun _ => rfl) fun _ => rfl
  | ok _ =>
      exact Work.stepsFor_backed planner current.settings.steps honest
        (kept.streams_accepted accepted)

theorem run_locked (planner : Planner C π) (cancelled : Bool) (locked : current.phase = .locked)
    (accepted : current.checkSources sources = .ok ()) :
    current.run planner sources cancelled =
        (.ok current.report, ⟨current, sources, cancelled⟩) ∧
      current.log planner sources cancelled = [] := by
  obtain ⟨steps, taken⟩ := current.settings.exists_steps
  constructor
  · simp only [run, accepted, taken, Work.stepsFor, Work.step, locked]
  · simp only [log, accepted, taken, Work.stepsLog, Work.step, Work.stepLog, locked,
      List.append_nil]

theorem Kept.limited (kept : Kept settings streams calls current) {limit : ℕ}
    (limited : settings.maxAttempts = some limit) (planner : Planner C π) (sources : List ρ)
    (cancelled : Bool) :
    (current.run planner sources cancelled).2.synchronizer.report.attempts ≤ limit := by
  have within := kept.within limit limited
  unfold run
  cases accepted : current.checkSources sources with
  | error cause => exact within
  | ok _ =>
      have same : (Work.mk current sources cancelled).synchronizer.settings.maxAttempts =
        some limit := by rw [kept.fixed, limited]
      exact Work.stepsFor_within planner _ same (kept.streams_accepted accepted) within

theorem Kept.left (kept : Kept settings streams calls current)
    (ran : current.run planner sources cancelled = (outcome, last))
    (returned : outcome ≠ .error .fault) :
    (last.synchronizer.phase = .measuring ∨
        (last.synchronizer.phase = .locked ∧ outcome = .ok last.synchronizer.report) ∨
        last.synchronizer = current) ∧
      (∀ report, outcome = .ok report →
        last.synchronizer.phase = .locked ∧ last.synchronizer.report = report) ∧
      (current.phase = .locked → last.synchronizer = current) := by
  cases accepted : current.checkSources sources with
  | error cause =>
      simp only [run, accepted] at ran
      cases ran
      refine ⟨.inr (.inr rfl), ?_, fun _ => rfl⟩
      intro report answered
      cases answered
  | ok _ =>
      have stays (locked : current.phase = .locked) : last.synchronizer = current := by
        rw [(run_locked planner cancelled locked accepted).1] at ran
        cases ran
        rfl
      simp only [run, accepted] at ran
      cases Work.stepsFor_left (kept.streams_accepted accepted) ran returned with
      | locked phase =>
          refine ⟨.inr (.inl ⟨phase, rfl⟩), ?_, stays⟩
          intro report answered
          cases answered
          exact ⟨phase, rfl⟩
      | measuring cause phase =>
          refine ⟨.inl phase, ?_, stays⟩
          intro report answered
          cases answered

theorem Kept.next (kept : Kept settings streams calls current)
    (ran : current.run planner sources cancelled = (outcome, last))
    (returned : outcome ≠ .error .fault) :
    Kept settings streams (calls ++ [⟨current.log planner sources cancelled, outcome⟩])
      last.synchronizer := by
  obtain ⟨books, _⟩ := kept.balanced planner sources cancelled
  have limited (limit : ℕ) (limited : settings.maxAttempts = some limit) :=
    kept.limited limited planner sources cancelled
  obtain ⟨idle, done, stays⟩ := kept.left ran returned
  rw [ran] at books limited
  have logs : logged (calls ++ [⟨current.log planner sources cancelled, outcome⟩]) =
      logged calls ++ current.log planner sources cancelled := by
    simp [logged]
  refine ⟨books.settings.trans kept.fixed, books.buffers.trans kept.paired,
    books.columns.trans kept.columns, ?_, ?_, limited, ?_, fun stream => ?_, ?_⟩
  · rcases idle with measuring | ⟨locked, answered⟩ | same
    · exact .inl measuring
    · exact .inr ⟨locked, _, List.mem_append_right calls List.mem_cons_self, answered⟩
    · rw [same]
      rcases kept.idle with measuring | ⟨locked, call, before, answered⟩
      · exact .inl measuring
      · exact .inr ⟨locked, call, List.mem_append_left _ before, answered⟩
  · rw [logs, rounds_append, ← kept.attempts]
    exact books.attempts
  · have few := kept.rejected
    have more := books.rejected
    simp only at more
    omega
  · rw [logs, discarded_append, ← kept.drained]
    exact books.drained stream
  · intro call member report answered
    rcases List.mem_append.mp member with before | this
    · obtain ⟨locked, same⟩ := kept.settled call before report answered
      rw [stays locked]
      exact ⟨locked, same⟩
    · obtain rfl := List.mem_singleton.mp this
      exact done report answered

end Run

theorem History.kept (prepared : prepare planner streams settings = .ok fresh)
    (history : History planner fresh calls current) : Kept settings streams calls current := by
  induction history with
  | fresh => exact prepare_kept prepared
  | call earlier sources cancelled ran returned ih => exact ih.next ran returned

end Synchronizer

end Wideband.Lock
