import Wideband.Lock.Synchronizer

namespace Wideband.Lock

/-!
What a synchronizer does, in order. The log of an operation is read off the states that the
operation itself goes through, and stops where it does: rounds begun, answers to whether the session
was cancelled, buffers read, lags measured and samples skipped.
-/

inductive Event where
  | round
  | poll (cancelled : Bool)
  | fetch (outcome : Outcome Unit)
  | lag (stream : Nat) (peak : Option Nat) (offset : Except Error Int)
  | skip (stream count : Nat) (outcome : Outcome Unit)

def Event.fetches : Event → Bool
  | .fetch _ => true
  | _ => false

section Lags

variable {C R π : Type} [Component R] [Sample C R]

def lagLog (planner : Planner C π) (correlator : Correlator C π) (reference : Array C)
    (index : Nat) : List (Buffer C) → List Event
  | [] => []
  | buffer :: rest =>
      match buffer.samples with
      | .error _ => []
      | .ok samples =>
          let lag := correlator.lag planner reference samples index
          .lag index (peak lag.correlator.output) lag.result ::
            match lag.result with
            | .error _ => []
            | .ok _ => lagLog planner lag.correlator lag.reference (index + 1) rest

end Lags

namespace Work

variable {ρ C R π : Type}

def gathered [Source ρ C] (work : Work ρ C π) : Gathering ρ C :=
  Source.fillAll .measuring work.sources work.synchronizer.buffers

def fetched [Source ρ C] (work : Work ρ C π) : Work ρ C π where
  synchronizer := { work.synchronizer with buffers := work.gathered.buffers }
  sources := work.gathered.sources
  cancelled := work.cancelled || work.gathered.signals.cancels

section Measuring

variable [Component R] [Sample C R]

def correlateLog (planner : Planner C π) (work : Work ρ C π) : List Event :=
  match work.synchronizer.buffers with
  | [] => []
  | first :: rest =>
      match first.samples with
      | .error _ => []
      | .ok reference => lagLog planner work.synchronizer.correlator reference 1 rest

variable [Source ρ C]

def trialLog (planner : Planner C π) (work : Work ρ C π) : List Event :=
  .fetch work.gathered.outcome ::
    match work.gathered.outcome with
    | .error _ => []
    | .ok () => work.fetched.correlateLog planner

def measureLog (planner : Planner C π) :
    Nat → Option (List Int) → Work ρ C π → List Event
  | 0, _, _ => []
  | trials + 1, agreed, work =>
      .poll work.cancelled ::
        if work.cancelled then []
        else
          work.trialLog planner ++
            match work.trial planner with
            | (.error _, _) => []
            | (.ok offsets, next) =>
                match agreed with
                | none => measureLog planner trials (some offsets) next
                | some first =>
                    if first = offsets then measureLog planner trials agreed next else []

theorem trial_eq (planner : Planner C π) (work : Work ρ C π) :
    work.trial planner =
      match work.gathered.outcome with
      | .error failure => (.error failure, work.fetched)
      | .ok () =>
          (Outcome.ofResult (work.fetched.correlate planner).1, (work.fetched.correlate planner).2) :=
  rfl

end Measuring

section Draining

variable [Zero C] [Source ρ C]

def passed (work : Work ρ C π) (index : Nat) (source : ρ) (count : Nat) : Work ρ C π :=
  let skipped := Source.skip source count work.synchronizer.settings.length
  { work with
    sources := work.sources.set index skipped.source
    cancelled := work.cancelled || skipped.signals.cancels }

inductive Discards (work : Work ρ C π) (index count : Nat) : Outcome Unit × Work ρ C π → Prop where
  | absent (none : work.sources[index]? = none) : Discards work index count (.error .fault, work)
  | failed (source : ρ) (failure : Failure) (own : work.sources[index]? = some source)
      (skip : (Source.skip source count work.synchronizer.settings.length).outcome = .error failure) :
      Discards work index count
        (Outcome.inStream index .draining (.error failure), work.passed index source count)
  | done (source : ρ) (own : work.sources[index]? = some source)
      (skip : (Source.skip source count work.synchronizer.settings.length).outcome = .ok ()) :
      Discards work index count
        (.ok (), (work.passed index source count).reporting fun report =>
          { report with drained := report.drained.modify index (· + count) })

theorem discards (work : Work ρ C π) (index count : Nat) :
    Discards work index count (work.discard index count) := by
  cases own : work.sources[index]? with
  | none =>
      simp only [discard, own]
      exact .absent own
  | some source =>
      cases skip : (Source.skip source count work.synchronizer.settings.length).outcome with
      | error failure =>
          simp only [discard, own, skip]
          exact .failed source failure own skip
      | ok _ =>
          simp only [discard, own, skip]
          exact .done source own skip

def drainLateLog (index : Nat) : List Int → Work ρ C π → List Event
  | [], _ => []
  | offset :: rest, work =>
      if offset < 0 then
        .skip index offset.natAbs (work.discard index offset.natAbs).1 ::
          match work.discard index offset.natAbs with
          | (.error _, _) => []
          | (.ok (), next) => drainLateLog (index + 1) rest next
      else drainLateLog (index + 1) rest work

def drainLog (work : Work ρ C π) (offsets : List Int) : List Event :=
  let lead := largest offsets
  if 0 < lead then
    .skip 0 lead.toNat (work.discard 0 lead.toNat).1 ::
      match work.discard 0 lead.toNat with
      | (.error _, _) => []
      | (.ok (), next) =>
          match offsets with
          | [] => []
          | reference :: others => drainLateLog 0 (reference :: others.map (· - lead)) next
  else drainLateLog 0 offsets work

/-- Streams that skip samples one after the other, until one of them can not. -/
inductive Discarding : Work ρ C π → List Event → Outcome Unit × Work ρ C π → Prop where
  | done (work : Work ρ C π) : Discarding work [] (.ok (), work)
  | stuck {work next : Work ρ C π} {failure : Failure} (index count : Nat)
      (failed : work.discard index count = (.error failure, next)) :
      Discarding work [.skip index count (.error failure)] (.error failure, next)
  | onward {work next : Work ρ C π} {log : List Event} {result : Outcome Unit × Work ρ C π}
      (index count : Nat) (skipped : work.discard index count = (.ok (), next))
      (rest : Discarding next log result) :
      Discarding work (.skip index count (.ok ()) :: log) result

theorem drainLate_discarding (index : Nat) (offsets : List Int) (work : Work ρ C π) :
    Discarding work (work.drainLateLog index offsets) (work.drainLate index offsets) := by
  induction offsets generalizing index work with
  | nil => exact .done work
  | cons offset offsets ih =>
      by_cases late : offset < 0
      · simp only [drainLate, drainLateLog, late, if_true]
        cases skipped : work.discard index offset.natAbs with
        | mk outcome next =>
            cases outcome with
            | error failure => exact .stuck index _ skipped
            | ok _ => exact .onward index _ skipped (ih (index + 1) next)
      · simp only [drainLate, drainLateLog, late, if_false]
        exact ih (index + 1) work

theorem drain_discarding (offsets : List Int) (work : Work ρ C π) :
    Discarding work (work.drainLog offsets) (work.drain offsets) := by
  by_cases lead : 0 < largest offsets
  · simp only [drain, drainLog, lead, if_true]
    cases skipped : work.discard 0 (largest offsets).toNat with
    | mk outcome next =>
        cases outcome with
        | error failure => exact .stuck 0 _ skipped
        | ok _ =>
            refine .onward 0 _ skipped ?_
            cases offsets with
            | nil => exact .done next
            | cons reference others => exact next.drainLate_discarding 0 _
  · simp only [drain, drainLog, lead, if_false]
    exact work.drainLate_discarding 0 offsets

theorem Discarding.fetches {work : Work ρ C π} {log : List Event}
    {result : Outcome Unit × Work ρ C π} (discarding : Discarding work log result) :
    log.countP Event.fetches = 0 := by
  induction discarding with
  | done => rfl
  | stuck => rfl
  | onward _ _ _ _ ih => rwa [List.countP_cons_of_neg Bool.false_ne_true]

end Draining

variable [Component R] [Sample C R] [Source ρ C]

def begun (work : Work ρ C π) : Work ρ C π :=
  work.reporting fun report => { report with attempts := report.attempts + 1 }

theorem step_measuring {planner : Planner C π} {work : Work ρ C π}
    (stage : work.synchronizer.phase = .measuring) (more : work.exhausted = false) :
    work.step planner =
      match work.begun.measure planner work.synchronizer.settings.trials none with
      | (.error failure, next) => (.ended (.error failure), next)
      | (.ok (some offsets), next) => (.ongoing, next.inPhase (.draining offsets))
      | (.ok none, next) => (.ongoing, next.reporting fun report =>
          { report with rejected := report.rejected + 1 }) := by
  simp only [step, stage, more]
  rfl

theorem step_draining {planner : Planner C π} {work : Work ρ C π} {offsets : List Int}
    (stage : work.synchronizer.phase = .draining offsets) (live : work.cancelled = false)
    (apart : ¬offsets.all (· == 0) = true) :
    work.step planner =
      match (work.inPhase .measuring).drain offsets with
      | (.error failure, next) => (.ended (.error failure), next)
      | (.ok (), next) => (.ongoing, next) := by
  have same : (work.inPhase .measuring).cancelled = work.cancelled := rfl
  simp only [step, stage, same, live, apart]
  rfl

def stepLog (planner : Planner C π) (work : Work ρ C π) : List Event :=
  match work.synchronizer.phase with
  | .measuring =>
      if work.exhausted then []
      else .round :: work.begun.measureLog planner work.synchronizer.settings.trials none
  | .draining offsets =>
      .poll work.cancelled ::
        if work.cancelled then []
        else if offsets.all (· == 0) then []
        else (work.inPhase .measuring).drainLog offsets
  | .locked => []

def stepsLog (planner : Planner C π) : Nat → Work ρ C π → List Event
  | 0, _ => []
  | steps + 1, work =>
      work.stepLog planner ++
        match work.step planner with
        | (.ended _, _) => []
        | (.ongoing, next) => stepsLog planner steps next

end Work

def Synchronizer.log {ρ C R π : Type} [Component R] [Sample C R] [Source ρ C]
    (planner : Planner C π) (synchronizer : Synchronizer C π) (sources : List ρ)
    (cancelled : Bool) : List Event :=
  match synchronizer.checkSources sources with
  | .error _ => []
  | .ok () => Work.stepsLog planner synchronizer.settings.steps ⟨synchronizer, sources, cancelled⟩

/-- The log of one trial that finds all streams in step, between the answer that the session goes
on and the last lag. -/
def agreeingTrial (streams : Nat) : List Event :=
  .poll false :: .fetch (.ok ()) ::
    (List.range' 1 (streams - 1)).map fun stream => .lag stream (some 0) (.ok 0)

def agreeingRound (streams trials : Nat) : List Event :=
  .round :: (List.replicate trials (agreeingTrial streams)).flatten

end Wideband.Lock
