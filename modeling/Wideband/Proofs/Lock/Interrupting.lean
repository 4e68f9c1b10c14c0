import Wideband.Proofs.Lock.Lifetime

namespace Wideband.Lock

/-!
Runs that are cancelled by somebody else while they go on. A run is taken apart into its single
actions, each of which polls, reads or measures at most once (`Run.act`), and between any two of
them the token may be raised (`Run.play`). Left alone, these actions make up a run of the
synchronizer (`Run.alone_run`).
-/

inductive Place where
  | entering
  | turning
  /-- A round is about to begin one of the trials that are left to it. -/
  | polling (trials : ℕ) (agreed : Option (List ℤ))
  /-- A trial may fetch its buffers; so many are left after it. -/
  | fetching (trials : ℕ) (agreed : Option (List ℤ))
  | comparing (trials : ℕ) (agreed : Option (List ℤ))
  | settling (offsets : List ℤ)
  /-- Streams have to skip so many samples, one after the other. -/
  | skipping (arrears : List (ℕ × ℕ))
  | ended (outcome : Outcome Report)

structure Run (ρ C π : Type) where
  work : Work ρ C π
  place : Place

inductive Move where
  | act
  | raise

def late (index : ℕ) : List ℤ → List (ℕ × ℕ)
  | [] => []
  | offset :: offsets =>
      if offset < 0 then (index, offset.natAbs) :: late (index + 1) offsets
      else late (index + 1) offsets

/-- All that has to be skipped for offsets to become zero, in order. -/
def arrears : List ℤ → List (ℕ × ℕ)
  | [] => []
  | reference :: others =>
      let lead := Work.largest (reference :: others)
      if 0 < lead then (0, lead.toNat) :: late 0 (reference :: others.map (· - lead))
      else late 0 (reference :: others)

variable {ρ C R π : Type}

def Work.disagreed (work : Work ρ C π) : Work ρ C π :=
  work.reporting fun report => { report with rejected := report.rejected + 1 }

namespace Run

variable [Component R] [Sample C R] [Source ρ C]

def act (planner : Planner C π) (run : Run ρ C π) : List Event × Run ρ C π :=
  let work := run.work
  match run.place with
  | .entering =>
      match work.synchronizer.checkSources work.sources with
      | .error cause => ([], ⟨work, .ended (.fail cause)⟩)
      | .ok () => ([], ⟨work, .turning⟩)
  | .turning =>
      match work.synchronizer.phase with
      | .measuring =>
          if work.exhausted then
            ([], ⟨work, .ended (.fail (.notConverged work.synchronizer.report.attempts))⟩)
          else ([.round], ⟨work.begun, .polling work.synchronizer.settings.trials none⟩)
      | .draining offsets => ([], ⟨work.inPhase .measuring, .settling offsets⟩)
      | .locked => ([], ⟨work, .ended (.ok work.synchronizer.report)⟩)
  | .polling 0 (some offsets) => ([], ⟨work.inPhase (.draining offsets), .turning⟩)
  | .polling 0 none => ([], ⟨work.disagreed, .turning⟩)
  | .polling (trials + 1) agreed =>
      ([.poll work.cancelled],
        ⟨work, if work.cancelled then .ended (.fail .cancelled) else .fetching trials agreed⟩)
  | .fetching trials agreed =>
      ([.fetch work.gathered.outcome],
        ⟨work.fetched, match work.gathered.outcome with
          | .error failure => .ended (.error failure)
          | .ok () => .comparing trials agreed⟩)
  | .comparing trials agreed =>
      let next := (work.correlate planner).2
      (work.correlateLog planner, match (work.correlate planner).1, agreed with
        | .error cause, _ => ⟨next, .ended (.fail cause)⟩
        | .ok offsets, none => ⟨next, .polling trials (some offsets)⟩
        | .ok offsets, some first =>
            if first = offsets then ⟨next, .polling trials agreed⟩ else ⟨next.disagreed, .turning⟩)
  | .settling offsets =>
      ([.poll work.cancelled],
        if work.cancelled then ⟨work, .ended (.fail .cancelled)⟩
        else if offsets.all (· == 0) then ⟨work.inPhase .locked, .turning⟩
        else ⟨work, .skipping (arrears offsets)⟩)
  | .skipping [] => ([], ⟨work, .turning⟩)
  | .skipping ((index, count) :: rest) =>
      let skipped := work.discard index count
      ([.skip index count skipped.1],
        ⟨skipped.2, match skipped.1 with
          | .error failure => .ended (.error failure)
          | .ok () => .skipping rest⟩)
  | .ended outcome => ([], ⟨work, .ended outcome⟩)

def move (planner : Planner C π) (run : Run ρ C π) : Move → List Event × Run ρ C π
  | .act => run.act planner
  | .raise => ([], { run with work := { run.work with cancelled := true } })

def play (planner : Planner C π) : List Move → Run ρ C π → List Event × Run ρ C π
  | [], run => ([], run)
  | first :: moves, run =>
      let (log, next) := run.move planner first
      let (later, last) := play planner moves next
      (log ++ later, last)

inductive Acted (planner : Planner C π) (work : Work ρ C π) :
    Place → List Event × Run ρ C π → Prop where
  | refused (cause : Error) (no : work.synchronizer.checkSources work.sources = .error cause) :
      Acted planner work .entering ([], ⟨work, .ended (.fail cause)⟩)
  | accepted (yes : work.synchronizer.checkSources work.sources = .ok ()) :
      Acted planner work .entering ([], ⟨work, .turning⟩)
  | gaveUp (stage : work.synchronizer.phase = .measuring) :
      Acted planner work .turning
        ([], ⟨work, .ended (.fail (.notConverged work.synchronizer.report.attempts))⟩)
  | begins (stage : work.synchronizer.phase = .measuring) (more : work.exhausted = false) :
      Acted planner work .turning
        ([.round], ⟨work.begun, .polling work.synchronizer.settings.trials none⟩)
  | settles (offsets : List ℤ) (stage : work.synchronizer.phase = .draining offsets) :
      Acted planner work .turning ([], ⟨work.inPhase .measuring, .settling offsets⟩)
  | finished (stage : work.synchronizer.phase = .locked) :
      Acted planner work .turning ([], ⟨work, .ended (.ok work.synchronizer.report)⟩)
  | agreed (offsets : List ℤ) :
      Acted planner work (.polling 0 (some offsets))
        ([], ⟨work.inPhase (.draining offsets), .turning⟩)
  | untried : Acted planner work (.polling 0 none) ([], ⟨work.disagreed, .turning⟩)
  | halted (trials : ℕ) (agreed : Option (List ℤ)) (raised : work.cancelled = true) :
      Acted planner work (.polling (trials + 1) agreed)
        ([.poll true], ⟨work, .ended (.fail .cancelled)⟩)
  | tries (trials : ℕ) (agreed : Option (List ℤ)) (live : work.cancelled = false) :
      Acted planner work (.polling (trials + 1) agreed)
        ([.poll false], ⟨work, .fetching trials agreed⟩)
  | starved (trials : ℕ) (agreed : Option (List ℤ)) (failure : Failure)
      (answered : work.gathered.outcome = .error failure) :
      Acted planner work (.fetching trials agreed)
        ([.fetch (.error failure)], ⟨work.fetched, .ended (.error failure)⟩)
  | fetches (trials : ℕ) (agreed : Option (List ℤ)) (answered : work.gathered.outcome = .ok ()) :
      Acted planner work (.fetching trials agreed)
        ([.fetch (.ok ())], ⟨work.fetched, .comparing trials agreed⟩)
  | lost (trials : ℕ) (agreed : Option (List ℤ)) (cause : Error)
      (found : (work.correlate planner).1 = .error cause) :
      Acted planner work (.comparing trials agreed)
        (work.correlateLog planner, ⟨(work.correlate planner).2, .ended (.fail cause)⟩)
  | agrees (trials : ℕ) (agreed : Option (List ℤ)) (offsets : List ℤ)
      (found : (work.correlate planner).1 = .ok offsets) (same : agreed.getD offsets = offsets) :
      Acted planner work (.comparing trials agreed)
        (work.correlateLog planner, ⟨(work.correlate planner).2, .polling trials (some offsets)⟩)
  | differs (trials : ℕ) (first offsets : List ℤ)
      (found : (work.correlate planner).1 = .ok offsets) (other : first ≠ offsets) :
      Acted planner work (.comparing trials (some first))
        (work.correlateLog planner, ⟨(work.correlate planner).2.disagreed, .turning⟩)
  | stopped (offsets : List ℤ) (raised : work.cancelled = true) :
      Acted planner work (.settling offsets) ([.poll true], ⟨work, .ended (.fail .cancelled)⟩)
  | locks (offsets : List ℤ) (live : work.cancelled = false)
      (zero : ∀ offset ∈ offsets, offset = 0) :
      Acted planner work (.settling offsets) ([.poll false], ⟨work.inPhase .locked, .turning⟩)
  | drains (offsets : List ℤ) (live : work.cancelled = false)
      (apart : ¬offsets.all (· == 0) = true) :
      Acted planner work (.settling offsets) ([.poll false], ⟨work, .skipping (arrears offsets)⟩)
  | drained : Acted planner work (.skipping []) ([], ⟨work, .turning⟩)
  | skips (index count : ℕ) (rest : List (ℕ × ℕ)) (next : Work ρ C π)
      (done : work.discard index count = (.ok (), next)) :
      Acted planner work (.skipping ((index, count) :: rest))
        ([.skip index count (.ok ())], ⟨next, .skipping rest⟩)
  | stuck (index count : ℕ) (rest : List (ℕ × ℕ)) (failure : Failure) (next : Work ρ C π)
      (failed : work.discard index count = (.error failure, next)) :
      Acted planner work (.skipping ((index, count) :: rest))
        ([.skip index count (.error failure)], ⟨next, .ended (.error failure)⟩)
  | rests (outcome : Outcome Report) :
      Acted planner work (.ended outcome) ([], ⟨work, .ended outcome⟩)

theorem acted (planner : Planner C π) (work : Work ρ C π) (place : Place) :
    Acted planner work place (act planner ⟨work, place⟩) := by
  cases place with
  | entering =>
      cases accepted : work.synchronizer.checkSources work.sources with
      | error cause =>
          simp only [act, accepted]
          exact .refused cause accepted
      | ok _ =>
          simp only [act, accepted]
          exact .accepted accepted
  | turning =>
      cases stage : work.synchronizer.phase with
      | measuring =>
          cases more : work.exhausted with
          | true =>
              simp only [act, stage, more, if_true]
              exact .gaveUp stage
          | false =>
              simp only [act, stage, more]
              exact .begins stage more
      | draining offsets =>
          simp only [act, stage]
          exact .settles offsets stage
      | locked =>
          simp only [act, stage]
          exact .finished stage
  | polling trials agreed =>
      cases trials with
      | zero =>
          cases agreed with
          | none => exact .untried
          | some offsets => exact .agreed offsets
      | succ trials =>
          cases live : work.cancelled with
          | true =>
              simp only [act, live, if_true]
              exact .halted trials agreed live
          | false =>
              simp only [act, live]
              exact .tries trials agreed live
  | fetching trials agreed =>
      cases answered : work.gathered.outcome with
      | error failure =>
          simp only [act, answered]
          exact .starved trials agreed failure answered
      | ok _ =>
          simp only [act, answered]
          exact .fetches trials agreed answered
  | comparing trials agreed =>
      cases found : (work.correlate planner).1 with
      | error cause =>
          simp only [act, found]
          exact .lost trials agreed cause found
      | ok offsets =>
          cases agreed with
          | none =>
              simp only [act, found]
              exact .agrees trials none offsets found rfl
          | some first =>
              by_cases same : first = offsets
              · subst same
                simp only [act, found, if_true]
                exact .agrees trials (some first) first found rfl
              · simp only [act, found, same, if_false]
                exact .differs trials first offsets found same
  | settling offsets =>
      cases live : work.cancelled with
      | true =>
          simp only [act, live, if_true]
          exact .stopped offsets live
      | false =>
          by_cases zero : offsets.all (· == 0) = true
          · simp only [act, live, zero, if_true]
            exact .locks offsets live (by simpa using zero)
          · simp only [act, live, zero]
            exact .drains offsets live zero
  | skipping rest =>
      cases rest with
      | nil => exact .drained
      | cons due rest =>
          obtain ⟨index, count⟩ := due
          cases done : work.discard index count with
          | mk outcome next =>
              cases outcome with
              | error failure =>
                  simp only [act, done]
                  exact .stuck index count rest failure next done
              | ok _ =>
                  simp only [act, done]
                  exact .skips index count rest next done
  | ended outcome => exact .rests outcome

theorem play_append (planner : Planner C π) (moves others : List Move) (run : Run ρ C π) :
    run.play planner (moves ++ others) =
      ((run.play planner moves).1 ++ ((run.play planner moves).2.play planner others).1,
        ((run.play planner moves).2.play planner others).2) := by
  induction moves generalizing run with
  | nil => rfl
  | cons first moves ih => simp only [List.cons_append, play, ih, List.append_assoc]

/-- Actions with no move of anybody else between them. -/
def Alone (planner : Planner C π) (run : Run ρ C π) (log : List Event) (next : Run ρ C π) : Prop :=
  ∃ acts, run.play planner (List.replicate acts .act) = (log, next)

section Alone

variable {planner : Planner C π} {run next last : Run ρ C π} {log later : List Event}
  {work : Work ρ C π}

theorem Alone.refl (planner : Planner C π) (run : Run ρ C π) : Alone planner run [] run :=
  ⟨0, rfl⟩

theorem Alone.trans (first : Alone planner run log next) (second : Alone planner next later last) :
    Alone planner run (log ++ later) last := by
  obtain ⟨acts, ran⟩ := first
  obtain ⟨more, on⟩ := second
  exact ⟨acts + more, by rw [List.replicate_add, play_append, ran, on]⟩

theorem Alone.single (acted : run.act planner = (log, next)) : Alone planner run log next :=
  ⟨1, by simp [play, move, acted]⟩

theorem Alone.silent (acted : run.act planner = ([], next)) (rest : Alone planner next log last) :
    Alone planner run log last :=
  (Alone.single acted).trans rest

theorem Alone.event {event : Event} (acted : run.act planner = ([event], next))
    (rest : Alone planner next log last) : Alone planner run (event :: log) last :=
  (Alone.single acted).trans rest

def compared (trials : ℕ) (agreed : Option (List ℤ)) :
    Outcome (List ℤ) × Work ρ C π → Run ρ C π
  | (.error failure, next) => ⟨next, .ended (.error failure)⟩
  | (.ok offsets, next) =>
      match agreed with
      | none => ⟨next, .polling trials (some offsets)⟩
      | some first =>
          if first = offsets then ⟨next, .polling trials agreed⟩ else ⟨next.disagreed, .turning⟩

def tried : Outcome (Option (List ℤ)) × Work ρ C π → Run ρ C π
  | (.error failure, next) => ⟨next, .ended (.error failure)⟩
  | (.ok (some offsets), next) => ⟨next.inPhase (.draining offsets), .turning⟩
  | (.ok none, next) => ⟨next.disagreed, .turning⟩

def emptied : Outcome Unit × Work ρ C π → Run ρ C π
  | (.error failure, next) => ⟨next, .ended (.error failure)⟩
  | (.ok (), next) => ⟨next, .turning⟩

def turned : Progress Report × Work ρ C π → Run ρ C π
  | (.ended outcome, next) => ⟨next, .ended outcome⟩
  | (.ongoing, next) => ⟨next, .turning⟩

theorem alone_trial (planner : Planner C π) (trials : ℕ) (agreed : Option (List ℤ))
    (work : Work ρ C π) :
    Alone planner ⟨work, .fetching trials agreed⟩ (work.trialLog planner)
      (compared trials agreed (work.trial planner)) := by
  rw [Work.trial_eq, Work.trialLog]
  cases answered : work.gathered.outcome with
  | error failure => exact .single (by simp [act, answered, compared])
  | ok _ =>
      have fetches : act planner ⟨work, .fetching trials agreed⟩ =
          ([.fetch (.ok ())], ⟨work.fetched, .comparing trials agreed⟩) := by
        simp [act, answered]
      have compares : act planner ⟨work.fetched, .comparing trials agreed⟩ =
          (work.fetched.correlateLog planner, compared trials agreed
            (Outcome.ofResult (work.fetched.correlate planner).1,
              (work.fetched.correlate planner).2)) := by
        cases found : (work.fetched.correlate planner).1 with
        | error cause => simp [act, found, compared, Outcome.ofResult, Outcome.fail]
        | ok offsets => cases agreed <;> simp [act, found, compared, Outcome.ofResult]
      exact .event fetches (.single compares)

theorem alone_measure (planner : Planner C π) (trials : ℕ) (agreed : Option (List ℤ))
    (work : Work ρ C π) :
    Alone planner ⟨work, .polling trials agreed⟩ (work.measureLog planner trials agreed)
      (tried (work.measure planner trials agreed)) := by
  induction trials generalizing agreed work with
  | zero =>
      cases agreed with
      | none => exact .single rfl
      | some offsets => exact .single rfl
  | succ trials ih =>
      rw [Work.measureLog, Work.measure]
      cases live : work.cancelled with
      | true => exact .single (by simp [act, live, tried, Outcome.fail])
      | false =>
          have polls : act planner ⟨work, .polling (trials + 1) agreed⟩ =
              ([.poll false], ⟨work, .fetching trials agreed⟩) := by simp [act, live]
          have trial := alone_trial planner trials agreed work
          simp only [Bool.false_eq_true, if_false]
          refine .event polls ?_
          generalize work.trial planner = result at trial ⊢
          obtain ⟨outcome, next⟩ := result
          cases outcome with
          | error failure => simpa [tried, compared] using trial
          | ok offsets =>
              cases agreed with
              | none => exact trial.trans (ih _ _)
              | some first =>
                  by_cases same : first = offsets
                  · simp only [compared, same, if_true] at trial ⊢
                    exact trial.trans (ih _ _)
                  · simpa [compared, same, tried] using trial

theorem alone_drainLate (planner : Planner C π) (index : ℕ) (offsets : List ℤ)
    (work : Work ρ C π) :
    Alone planner ⟨work, .skipping (late index offsets)⟩ (work.drainLateLog index offsets)
      (emptied (work.drainLate index offsets)) := by
  induction offsets generalizing index work with
  | nil => exact .single rfl
  | cons offset offsets ih =>
      by_cases behind : offset < 0
      · simp only [late, Work.drainLateLog, Work.drainLate, behind, if_true]
        cases done : work.discard index offset.natAbs with
        | mk outcome next =>
            cases outcome with
            | error failure => exact .single (by simp [act, done, emptied])
            | ok _ =>
                have skips : act planner
                      ⟨work, .skipping ((index, offset.natAbs) :: late (index + 1) offsets)⟩ =
                    ([.skip index offset.natAbs (.ok ())],
                      ⟨next, .skipping (late (index + 1) offsets)⟩) := by simp [act, done]
                exact .event skips (ih (index + 1) next)
      · simp only [late, Work.drainLateLog, Work.drainLate, behind, if_false]
        exact ih (index + 1) work

theorem alone_drain (planner : Planner C π) (offsets : List ℤ) (work : Work ρ C π) :
    Alone planner ⟨work, .skipping (arrears offsets)⟩ (work.drainLog offsets)
      (emptied (work.drain offsets)) := by
  cases offsets with
  | nil => exact alone_drainLate planner 0 [] work
  | cons reference others =>
      rw [Work.drainLog, Work.drain, arrears]
      by_cases lead : 0 < Work.largest (reference :: others)
      · simp only [lead, if_true]
        cases done : work.discard 0 (Work.largest (reference :: others)).toNat with
        | mk outcome next =>
            cases outcome with
            | error failure => exact .single (by simp [act, done, emptied])
            | ok _ => exact .event (by simp [act, done]) (alone_drainLate planner 0 _ next)
      · simp only [lead, if_false]
        exact alone_drainLate planner 0 _ work

theorem alone_step (planner : Planner C π) (work : Work ρ C π) :
    Alone planner ⟨work, .turning⟩ (work.stepLog planner) (turned (work.step planner)) := by
  cases stage : work.synchronizer.phase with
  | locked =>
      simp only [Work.stepLog, Work.step, stage]
      exact .single (by simp [act, stage, turned])
  | measuring =>
      cases more : work.exhausted with
      | true =>
          simp only [Work.stepLog, Work.step, stage, more, if_true]
          exact .single (by simp [act, stage, more, turned])
      | false =>
          have log : work.stepLog planner = .round ::
              work.begun.measureLog planner work.synchronizer.settings.trials none := by
            simp [Work.stepLog, stage, more]
          have begins : act planner ⟨work, .turning⟩ =
              ([.round], ⟨work.begun, .polling work.synchronizer.settings.trials none⟩) := by
            simp [act, stage, more]
          have round := alone_measure planner work.synchronizer.settings.trials none work.begun
          rw [log, Work.step_measuring stage more]
          refine .event begins ?_
          generalize work.begun.measure planner work.synchronizer.settings.trials none = result
            at round ⊢
          obtain ⟨outcome, next⟩ := result
          rcases outcome with failure | _ | offsets
          · exact round
          · exact round
          · exact round
  | draining offsets =>
      have settles : act planner ⟨work, .turning⟩ =
          ([], ⟨work.inPhase .measuring, .settling offsets⟩) := by simp [act, stage]
      refine .silent settles ?_
      have same : (work.inPhase .measuring).cancelled = work.cancelled := rfl
      cases live : work.cancelled with
      | true =>
          simp only [Work.stepLog, Work.step, stage, same, live, if_true]
          exact .single (by simp [act, same, live, turned])
      | false =>
          by_cases zero : offsets.all (· == 0) = true
          · simp only [Work.stepLog, Work.step, stage, same, live, zero, if_true]
            exact .single (by simp [act, same, live, zero, turned])
          · have log : work.stepLog planner =
                .poll false :: (work.inPhase .measuring).drainLog offsets := by
              simp only [Work.stepLog, stage, live, zero]
              rfl
            have drains : act planner ⟨work.inPhase .measuring, .settling offsets⟩ =
                ([.poll false], ⟨work.inPhase .measuring, .skipping (arrears offsets)⟩) := by
              simp only [act, same, live, zero]
              rfl
            have drain := alone_drain planner offsets (work.inPhase .measuring)
            rw [log, Work.step_draining stage live zero]
            refine .event drains ?_
            generalize (work.inPhase .measuring).drain offsets = result at drain ⊢
            obtain ⟨outcome, next⟩ := result
            cases outcome with
            | error failure => exact drain
            | ok _ => exact drain

theorem alone_steps (planner : Planner C π) (steps : ℕ) (work : Work ρ C π) :
    ∃ place, Alone planner ⟨work, .turning⟩ (work.stepsLog planner steps)
        ⟨(work.stepsFor planner steps).2, place⟩ ∧
      (place = .ended (work.stepsFor planner steps).1 ∨
        (work.stepsFor planner steps).1 = .error .fault ∧ place = .turning) := by
  induction steps generalizing work with
  | zero => exact ⟨.turning, .refl planner _, .inr ⟨rfl, rfl⟩⟩
  | succ steps ih =>
      have step := alone_step planner work
      simp only [Work.stepsLog, Work.stepsFor]
      generalize work.step planner = result at step ⊢
      obtain ⟨progress, next⟩ := result
      cases progress with
      | ended outcome =>
          simp only [List.append_nil]
          exact ⟨_, step, .inl rfl⟩
      | ongoing =>
          obtain ⟨place, rest, ended⟩ := ih next
          exact ⟨place, step.trans rest, ended⟩

end Alone

def start (synchronizer : Synchronizer C π) (sources : List ρ) (cancelled : Bool) : Run ρ C π :=
  ⟨⟨synchronizer, sources, cancelled⟩, .entering⟩

/-- Left alone, the actions make up a run of the synchronizer. -/
theorem alone_run (planner : Planner C π) (synchronizer : Synchronizer C π) (sources : List ρ)
    (cancelled : Bool) :
    ∃ place, Alone planner (start synchronizer sources cancelled)
        (synchronizer.log planner sources cancelled)
        ⟨(synchronizer.run planner sources cancelled).2, place⟩ ∧
      (place = .ended (synchronizer.run planner sources cancelled).1 ∨
        (synchronizer.run planner sources cancelled).1 = .error .fault ∧ place = .turning) := by
  cases accepted : synchronizer.checkSources sources with
  | error cause =>
      simp only [Synchronizer.log, Synchronizer.run, accepted]
      exact ⟨_, .single (by simp [start, act, accepted]), .inl rfl⟩
  | ok _ =>
      obtain ⟨place, steps, ended⟩ :=
        alone_steps planner synchronizer.settings.steps ⟨synchronizer, sources, cancelled⟩
      simp only [Synchronizer.log, Synchronizer.run, accepted]
      exact ⟨place, .silent (by simp [start, act, accepted]) steps, ended⟩

end Run

end Wideband.Lock
