import Wideband.Proofs.Array.Calls
import Wideband.Proofs.Lock.Custody

namespace Wideband

/-- What phases that follow each other come to: the first failure among them counts. -/
def firstFailure : List (Outcome Unit) → Outcome Unit
  | [] => .ok ()
  | .ok () :: rest => firstFailure rest
  | .error failure :: _ => .error failure

namespace LockedArray

variable {τ ρ C R π F : Type}

theorem inner_rotated {sources : List (Converted ρ C)} {factors : List C}
    (paired : factors.length = sources.length) :
    (List.zipWith Rotated.mk sources factors).map Rotated.inner = sources := by
  induction sources generalizing factors with
  | nil => rfl
  | cons source sources ih =>
      cases factors with
      | nil => cases paired
      | cons factor factors =>
          rw [List.zipWith_cons_cons, List.map_cons, ih (Nat.succ.inj paired)]

variable [Receiver τ ρ F]

def preliminaries (array : LockedArray τ C π) : List (Outcome Unit) :=
  [.ofResult array.settings.check, .ofResult (array.rate.map fun _ => ()),
    .ofResult (Receiver.each (Receiver.switch true) array.receivers).1]

variable [Component R] [Sample C R] [Source ρ C]

/-- The phases of a start, each as it comes out when those before it succeed: the receivers are
started, their streams are locked, and the noise sources are switched off. -/
def phases (array : LockedArray τ C π) : List (Outcome Unit) :=
  let noisy := (Receiver.each (Receiver.switch true) array.receivers).2
  let (begun, streams, started) := startEach (C := C) noisy
  let used := lockStreams array.planner array.settings streams array.cancelled
  array.preliminaries ++ [begun, used.outcome.map fun _ => (),
    .ofResult (Receiver.each (Receiver.switch false) started).1]

def sessionOf (used : Lock.Used (Converted ρ C) (Lock.Report × List C)) (report : Lock.Report)
    (rotators : List C) : Session ρ C :=
  ⟨List.zipWith Rotated.mk used.sources rotators, rotators, report⟩

def answer (array : LockedArray τ C π) : Outcome (Session ρ C) :=
  let noisy := (Receiver.each (Receiver.switch true) array.receivers).2
  let (begun, streams, started) := startEach (C := C) noisy
  let used := lockStreams array.planner array.settings streams array.cancelled
  do
    Outcome.ofResult array.settings.check
    let _ ← Outcome.ofResult array.rate
    Outcome.ofResult (Receiver.each (Receiver.switch true) array.receivers).1
    begun
    let (report, rotators) ← used.outcome
    Outcome.ofResult (Receiver.each (Receiver.switch false) started).1
    return sessionOf used report rotators

theorem start_answer (array : LockedArray τ C π) : (start array).outcome = array.answer := by
  unfold start answer
  cases check : array.settings.check with
  | error cause => rfl
  | ok _ =>
      cases rate : array.rate with
      | error cause => rfl
      | ok rate =>
          cases on : Receiver.each (Receiver.switch true) array.receivers with
          | mk result noisy =>
              cases result with
              | error cause =>
                  simp only [switchNoise, on, bind, Except.bind]
                  rfl
              | ok _ =>
                  simp only [switchNoise, on, bind, Except.bind, lock]
                  rcases begun : startEach (C := C) noisy with ⟨failure | _, streams, started⟩
                  · cases failure <;> rfl
                  · cases locked : (lockStreams array.planner array.settings streams
                        array.cancelled).outcome with
                    | error failure =>
                        simp only [locked]
                        cases failure <;> rfl
                    | ok result =>
                        rcases off : Receiver.each (Receiver.switch false) started with
                          ⟨cause | _, quieted⟩
                        · simp only [locked, quiet, switchNoise, off]
                          rfl
                        · simp only [locked, quiet, switchNoise, off]
                          rfl

/-- The first failure among the phases is what a start reports; no failure to close a stream or to
switch off a noise source stands in its way. -/
theorem outcome_start (array : LockedArray τ C π) :
    (start array).outcome.map (fun _ => ()) = firstFailure array.phases := by
  rw [start_answer]
  unfold answer phases preliminaries
  generalize array.settings.check = check
  generalize array.rate = rate
  obtain ⟨on, noisy⟩ := Receiver.each (Receiver.switch true) array.receivers
  dsimp only
  obtain ⟨begun, streams, started⟩ := startEach (C := C) noisy
  dsimp only
  obtain ⟨found, used, cancelled⟩ :=
    lockStreams array.planner array.settings streams array.cancelled
  obtain ⟨off, quieted⟩ := Receiver.each (Receiver.switch false) started
  cases check with
  | error cause => rfl
  | ok _ =>
      cases rate with
      | error cause => rfl
      | ok rate =>
          cases on with
          | error cause => rfl
          | ok _ =>
              cases begun with
              | error failure => rfl
              | ok _ =>
                  cases found with
                  | error failure => rfl
                  | ok found => cases off <;> rfl

/-- The ways a start can go, with what each leaves behind. -/
inductive Ended (array : LockedArray τ C π) : Start τ ρ C π → Prop where
  | refused {cause : Error} (refusal : (do array.settings.check; array.rate) = .error cause) :
      Ended array ⟨.fail cause, [], array⟩
  | unswitched {cause : Error} {noisy : List τ}
      (on : Receiver.each (Receiver.switch true) array.receivers = (.error cause, noisy)) :
      Ended array ⟨.fail cause, [],
        { array with receivers := (Receiver.each (Receiver.switch false) noisy).2 }⟩
  | unstarted {cause : Error} {noisy started : List τ} {streams : List (Converted ρ C)}
      (on : Receiver.each (Receiver.switch true) array.receivers = (.ok (), noisy))
      (begun : startEach noisy = (.error (.error cause), streams, started)) :
      Ended array ⟨.fail cause, (Source.closeAll (C := C) streams).2,
        { array with receivers := (Receiver.each (Receiver.switch false) started).2 }⟩
  | unlocked {cause : Error} {noisy started : List τ} {streams : List (Converted ρ C)}
      {used : Lock.Used (Converted ρ C) (Lock.Report × List C)}
      (on : Receiver.each (Receiver.switch true) array.receivers = (.ok (), noisy))
      (begun : startEach noisy = (.ok (), streams, started))
      (locked : lockStreams array.planner array.settings streams array.cancelled = used)
      (failed : used.outcome = .error (.error cause)) :
      Ended array ⟨.fail cause, (Source.closeAll (C := C) used.sources).2,
        { array with
          receivers := (Receiver.each (Receiver.switch false) started).2
          cancelled := used.cancelled }⟩
  | loud {cause : Error} {noisy started quieted : List τ} {streams : List (Converted ρ C)}
      {used : Lock.Used (Converted ρ C) (Lock.Report × List C)} {report : Lock.Report}
      {rotators : List C}
      (on : Receiver.each (Receiver.switch true) array.receivers = (.ok (), noisy))
      (begun : startEach noisy = (.ok (), streams, started))
      (locked : lockStreams array.planner array.settings streams array.cancelled = used)
      (found : used.outcome = .ok (report, rotators))
      (off : Receiver.each (Receiver.switch false) started = (.error cause, quieted)) :
      Ended array ⟨.fail cause, (sessionOf used report rotators).close.2.unrotated,
        { array with receivers := quieted, cancelled := used.cancelled }⟩
  | done {noisy started quieted : List τ} {streams : List (Converted ρ C)}
      {used : Lock.Used (Converted ρ C) (Lock.Report × List C)} {report : Lock.Report}
      {rotators : List C}
      (on : Receiver.each (Receiver.switch true) array.receivers = (.ok (), noisy))
      (begun : startEach noisy = (.ok (), streams, started))
      (locked : lockStreams array.planner array.settings streams array.cancelled = used)
      (found : used.outcome = .ok (report, rotators))
      (off : Receiver.each (Receiver.switch false) started = (.ok (), quieted)) :
      Ended array ⟨.ok (sessionOf used report rotators), [],
        { array with receivers := quieted, cancelled := used.cancelled }⟩
  | broken {left : Start τ ρ C π} (fault : left.outcome = .error .fault) : Ended array left

theorem lockStreams_keeps (planner : Planner C π) (settings : Lock.Settings)
    (streams : List (Converted ρ C)) (cancelled : Bool) :
    (lockStreams planner settings streams cancelled).Keeps streams cancelled := by
  have locked := Lock.synchronize_keeps planner settings streams cancelled
  unfold lockStreams
  dsimp only
  split
  · exact ⟨locked.worn, locked.calm⟩
  · obtain ⟨worn, calm⟩ := locked.trans (Lock.readRotators_keeps _ settings.length _)
    exact ⟨worn, calm⟩

theorem quiet_ended {array : LockedArray τ C π} {noisy : List τ}
    (on : Receiver.each (Receiver.switch true) array.receivers = (.ok (), noisy)) :
    Ended array (quiet (lock { array with receivers := noisy })) := by
  unfold lock
  split
  · rename_i failure streams started begun
    cases failure with
    | fault => exact .broken rfl
    | error cause => exact .unstarted on begun
  · rename_i streams started begun
    generalize locked : lockStreams _ _ streams _ = used
    cases outcome : used.outcome with
    | error failure =>
        cases failure with
        | fault => exact .broken (by simp [quiet, outcome])
        | error cause =>
            simp only [outcome]
            exact .unlocked on begun locked outcome
    | ok result =>
        obtain ⟨report, rotators⟩ := result
        cases off : Receiver.each (Receiver.switch false) started with
        | mk result quieted =>
            cases result with
            | error cause =>
                simp only [outcome, quiet, switchNoise, off]
                exact .loud on begun locked outcome off
            | ok _ =>
                simp only [outcome, quiet, switchNoise, off]
                exact .done on begun locked outcome off

theorem start_ended (array : LockedArray τ C π) : Ended array (start array) := by
  unfold start
  split
  · rename_i cause refusal
    exact .refused refusal
  · cases on : Receiver.each (Receiver.switch true) array.receivers with
    | mk result noisy =>
        cases result with
        | error cause =>
            simp only [switchNoise, on]
            exact .unswitched on
        | ok _ =>
            simp only [switchNoise, on]
            exact quiet_ended on

end LockedArray

end Wideband
