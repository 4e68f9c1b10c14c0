import Wideband.Proofs.Array.Starting
import Wideband.Proofs.Source.Logged
import Wideband.Simulation.ScriptedReceiver

namespace Wideband

/-!
What a start accounts for. Receivers hand out streams while they are started; a start that fails
has closed every one of them once, and one that succeeds has closed none and made a session of all of
them. The failure that is reported is that of the phase that failed first
(`LockedArray.start_accounts`).
-/

open Lock Receiver

variable {τ ρ C R π F : Type} [Receiver τ ρ F] {log : τ → List (Receiver.Call ρ)}

def streamsOf (log : τ → List (Receiver.Call ρ)) (receivers : List τ) : List ρ :=
  receivers.flatMap fun receiver => handed (log receiver)

theorem streamsOf_eq (log : τ → List (Receiver.Call ρ)) (receivers : List τ) :
    streamsOf log receivers = (receivers.map fun receiver => handed (log receiver)).flatten :=
  List.flatMap_def

theorem Receiver.Logs.handed_each (logs : Logs log) (enabled : Bool) (receivers : List τ) :
    ((each (Receiver.switch enabled) receivers).2.map fun receiver => handed (log receiver)) =
      receivers.map fun receiver => handed (log receiver) := by
  refine map_each (fun receiver => ?_) receivers
  rw [handed, handed, logs.starts_switch]

theorem Receiver.Logs.streamsOf_each (logs : Logs log) (enabled : Bool) (receivers : List τ) :
    streamsOf log (each (Receiver.switch enabled) receivers).2 = streamsOf log receivers := by
  rw [streamsOf_eq, streamsOf_eq, logs.handed_each]

theorem Receiver.Logs.silent_each (logs : Logs log) (enabled : Bool) {receivers : List τ}
    (silent : ∀ receiver ∈ receivers, starts (log receiver) = []) :
    ∀ receiver ∈ (each (Receiver.switch enabled) receivers).2, starts (log receiver) = [] := by
  refine forall_each (fun receiver none => ?_) silent
  rw [logs.starts_switch, none]

namespace LockedArray

theorem streamsOf_silent {receivers : List τ}
    (silent : ∀ receiver ∈ receivers, starts (log receiver) = []) :
    streamsOf log receivers = [] :=
  List.flatMap_eq_nil_iff.mpr fun receiver member => handed_of_starts (silent receiver member)

section Starting

variable [Sample C R] [Source ρ C]

theorem streamsOf_startEach (logs : Logs log) {receivers : List τ}
    (silent : ∀ receiver ∈ receivers, starts (log receiver) = []) :
    streamsOf log (startEach (C := C) receivers).2.2 =
      (startEach (C := C) receivers).2.1.map Converted.inner := by
  induction receivers with
  | nil => rfl
  | cons receiver rest ih =>
      obtain ⟨own, others⟩ := List.forall_mem_cons.mp silent
      have logged := logs.start receiver
      cases started : Receiver.start receiver with
      | mk outcome next =>
          rw [started] at logged
          have record : starts (log next) = [outcome] := by
            rw [logged, starts_append, own]
            rfl
          cases outcome with
          | error failure =>
              have none : handed (log next) = [] := by
                rw [handed, record]
                rfl
              have idle := streamsOf_silent others
              simp only [startEach, started, streamsOf, List.flatMap_cons, none] at idle ⊢
              rw [idle]
              rfl
          | ok stream =>
              have one : handed (log next) = [stream] := by
                rw [handed, record]
                rfl
              have later := ih others
              simp only [startEach, started, streamsOf, List.flatMap_cons, one, List.map_cons]
                at later ⊢
              rw [later]
              rfl

theorem streamsOf_begun (logs : Logs log) {receivers noisy started : List τ}
    {streams : List (Converted ρ C)} {result : Except Error Unit} {outcome : Outcome Unit}
    (silent : ∀ receiver ∈ receivers, starts (log receiver) = [])
    (on : each (switch true) receivers = (result, noisy))
    (begun : startEach noisy = (outcome, streams, started)) :
    streamsOf log started = streams.map Converted.inner := by
  have idle := logs.silent_each true silent
  rw [on] at idle
  have handed := streamsOf_startEach (C := C) logs idle
  rw [begun] at handed
  exact handed

theorem startEach_whole (logs : Logs log) {receivers started : List τ}
    {streams : List (Converted ρ C)}
    (silent : ∀ receiver ∈ receivers, starts (log receiver) = [])
    (begun : startEach receivers = (.ok (), streams, started)) :
    List.Forall₂ (fun receiver stream => handed (log receiver) = [stream.inner])
      started streams := by
  induction receivers generalizing streams started with
  | nil =>
      cases begun
      exact .nil
  | cons receiver rest ih =>
      obtain ⟨own, others⟩ := List.forall_mem_cons.mp silent
      have logged := logs.start receiver
      cases start : Receiver.start receiver with
      | mk outcome next =>
          rw [start] at logged
          cases outcome with
          | error failure => simp [startEach, start] at begun
          | ok stream =>
              have one : handed (log next) = [stream] := by
                rw [handed, logged, starts_append, own]
                rfl
              cases later : startEach (C := C) rest with
              | mk outcome left =>
                  simp only [startEach, start, later, Prod.mk.injEq] at begun
                  obtain ⟨rfl, rfl, rfl⟩ := begun
                  exact .cons one (ih others later)

theorem length_startEach (receivers : List τ) :
    (startEach (C := C) receivers).2.2.length = receivers.length := by
  induction receivers with
  | nil => rfl
  | cons receiver rest ih =>
      cases started : Receiver.start receiver with
      | mk outcome next => cases outcome <;> simp [startEach, started, ih]

end Starting

section Locking

variable [Component R] [Sample C R] [Source ρ C]

theorem closed_worn {streams used : List (Converted ρ C)}
    (worn : List.Forall₂ Source.Worn streams used) :
    List.Forall₂ Source.ClosedOnce (streams.map Converted.inner)
      ((Source.closeAll (C := C) used).2.map Converted.inner) := by
  rw [Source.sources_closeAll, List.map_map, List.forall₂_map_left_iff,
    List.forall₂_map_right_iff]
  exact worn.imp fun stream used worn => ⟨used.inner, Converted.inner_worn worn, rfl⟩

theorem length_lockStreams {planner : Planner C π} {settings : Settings}
    {streams : List (Converted ρ C)} {cancelled : Bool} {report : Report} {rotators : List C}
    (found : (lockStreams planner settings streams cancelled).outcome = .ok (report, rotators)) :
    rotators.length = (lockStreams planner settings streams cancelled).sources.length := by
  unfold lockStreams at found ⊢
  dsimp only at found ⊢
  split at found
  · cases found
  · cases phased : (readRotators (synchronize planner settings streams cancelled).sources
        settings.length (synchronize planner settings streams cancelled).cancelled).outcome with
    | error failure =>
        rw [phased] at found
        cases found
    | ok factors =>
        rw [phased] at found
        cases found
        exact length_readRotators phased

theorem unrotated_close {used : Used (Converted ρ C) (Report × List C)} {report : Report}
    {rotators : List C} (paired : rotators.length = used.sources.length) :
    (sessionOf used report rotators).close.2.unrotated =
      (Source.closeAll (C := C) used.sources).2 := by
  have inner := inner_rotated paired
  rw [Source.sources_closeAll, ← inner]
  change (Source.closeAll (C := C) (List.zipWith Rotated.mk used.sources rotators)).2.map
    Rotated.inner = _
  rw [Source.sources_closeAll, List.map_map, List.map_map]
  rfl

theorem start_idle (logs : Logs log) {array : LockedArray τ C π}
    (silent : ∀ receiver ∈ array.receivers, starts (log receiver) = [])
    (failed : firstFailure array.preliminaries ≠ .ok ()) :
    (start array).retired = [] ∧
      ∀ receiver ∈ (start array).array.receivers, starts (log receiver) = [] := by
  unfold preliminaries at failed
  unfold start
  cases check : array.settings.check with
  | error cause => exact ⟨rfl, silent⟩
  | ok _ =>
      cases rate : array.rate with
      | error cause => exact ⟨rfl, silent⟩
      | ok rate =>
          have noisy := logs.silent_each true silent
          cases on : each (switch true) array.receivers with
          | mk result receivers =>
              rw [on] at noisy
              cases result with
              | error cause =>
                  simp only [switchNoise, on, bind, Except.bind]
                  exact ⟨trivial, logs.silent_each false noisy⟩
              | ok _ =>
                  rw [check, rate, on] at failed
                  exact absurd rfl failed

theorem start_closed (logs : Logs log) {array : LockedArray τ C π}
    (silent : ∀ receiver ∈ array.receivers, starts (log receiver) = []) {cause : Error}
    (failed : (start array).outcome = .error (.error cause)) :
    List.Forall₂ Source.ClosedOnce (streamsOf log (start array).array.receivers)
      ((start array).retired.map Converted.inner) := by
  have ended := start_ended array
  generalize start array = left at failed ended ⊢
  cases ended with
  | refused refusal =>
      rw [streamsOf_silent silent]
      exact .nil
  | unswitched on =>
      have idle := logs.silent_each true silent
      rw [on] at idle
      rw [streamsOf_silent (logs.silent_each false idle)]
      exact .nil
  | @unstarted _ _ started streams on begun =>
      rw [logs.streamsOf_each, streamsOf_begun logs silent on begun]
      exact closed_worn (Source.worn_same streams)
  | @unlocked _ _ started streams used on begun locked failed =>
      have kept := lockStreams_keeps array.planner array.settings streams array.cancelled
      rw [locked] at kept
      rw [logs.streamsOf_each, streamsOf_begun logs silent on begun]
      exact closed_worn kept.worn
  | @loud _ _ started quieted streams used report rotators on begun locked found off =>
      have same := logs.streamsOf_each false started
      rw [off] at same
      have kept := lockStreams_keeps array.planner array.settings streams array.cancelled
      have paired := length_lockStreams (locked ▸ found)
      rw [locked] at kept paired
      rw [same, streamsOf_begun logs silent on begun, unrotated_close paired]
      exact closed_worn kept.worn
  | done on begun locked found off => cases failed
  | broken fault => cases fault.symm.trans failed

theorem start_opened (logs : Logs log) {array : LockedArray τ C π}
    (silent : ∀ receiver ∈ array.receivers, starts (log receiver) = []) {session : Session ρ C}
    (succeeded : (start array).outcome = .ok session) :
    (start array).retired = [] ∧ session.readers.length = array.receivers.length ∧
      List.Forall₂ (fun receiver reader => ∃ stream, handed (log receiver) = [stream] ∧
        Source.Worn stream reader.inner.inner) (start array).array.receivers session.readers := by
  have idle := logs.silent_each true silent
  have ended := start_ended array
  generalize start array = left at succeeded ended ⊢
  cases ended with
  | refused refusal => cases succeeded
  | unswitched on => cases succeeded
  | unstarted on begun => cases succeeded
  | unlocked on begun locked failed => cases succeeded
  | loud on begun locked found off => cases succeeded
  | broken fault => cases fault.symm.trans succeeded
  | @done noisy started quieted streams used report rotators on begun locked found off =>
      cases succeeded
      rw [on] at idle
      have kept := lockStreams_keeps array.planner array.settings streams array.cancelled
      have paired := length_lockStreams (locked ▸ found)
      have same := logs.handed_each false started
      rw [locked] at kept paired
      rw [off] at same
      have worn : List.Forall₂ (fun receiver (reader : Converted ρ C) =>
          ∃ stream, handed (log receiver) = [stream] ∧ Source.Worn stream reader.inner)
          started used.sources := by
        refine forall₂_trans ?_ (startEach_whole logs idle begun) kept.worn
        intro receiver stream reader own worn
        exact ⟨stream.inner, own, Converted.inner_worn worn⟩
      rw [← inner_rotated paired, List.forall₂_map_right_iff] at worn
      -- Switching off leaves what was handed out as it was, receiver by receiver.
      have view : List.Forall₂ (fun (given : List ρ) (reader : Rotated (Converted ρ C) C) =>
          ∃ stream, given = [stream] ∧ Source.Worn stream reader.inner.inner)
          (started.map fun receiver => handed (log receiver))
          (List.zipWith Rotated.mk used.sources rotators) :=
        List.forall₂_map_left_iff.mpr worn
      rw [← same] at view
      have whole : noisy.length = array.receivers.length := by
        rw [← length_each (switch true) array.receivers, on]
      have began : started.length = noisy.length := by
        rw [← length_startEach (C := C) noisy, begun]
      exact ⟨rfl, (worn.length_eq.symm.trans began).trans whole, List.forall₂_map_left_iff.mp view⟩

end Locking

/-- What a start accounts for, by what the receivers have on record. -/
structure Accounts [Component R] [Sample C R] [Source ρ C] (log : τ → List (Receiver.Call ρ))
    (array : LockedArray τ C π) (left : Start τ ρ C π) : Prop where
  /-- The failure of the earliest phase is the one reported. -/
  earliest : left.outcome.map (fun _ => ()) = firstFailure array.phases
  idle : firstFailure array.preliminaries ≠ .ok () → left.retired = [] ∧
    ∀ receiver ∈ left.array.receivers, starts (log receiver) = []
  closed : ∀ cause, left.outcome = .error (.error cause) →
    List.Forall₂ Source.ClosedOnce (streamsOf log left.array.receivers)
      (left.retired.map Converted.inner)
  opened : ∀ session, left.outcome = .ok session → left.retired = [] ∧
    session.readers.length = array.receivers.length ∧
    List.Forall₂ (fun receiver reader => ∃ stream, handed (log receiver) = [stream] ∧
      Source.Worn stream reader.inner.inner) left.array.receivers session.readers

/-- Every start accounts for the streams that its receivers hand out, whatever fails. -/
theorem start_accounts [Component R] [Sample C R] [Source ρ C] (logs : Logs log)
    {array : LockedArray τ C π} (fresh : ∀ receiver ∈ array.receivers, log receiver = []) :
    Accounts log array (start array) := by
  have silent : ∀ receiver ∈ array.receivers, starts (log receiver) = [] := by
    intro receiver member
    rw [fresh receiver member]
    rfl
  exact {
    earliest := outcome_start array
    idle := start_idle logs silent
    closed := fun cause failed => start_closed logs silent failed
    opened := fun session succeeded => start_opened logs silent succeeded }

theorem start_accounts_failure :
    ∃ (array : LockedArray (Recorded ScriptedReceiver Feed) Complex32 Plan) (stream : Feed),
      (start array).outcome = .fail .overrun ∧
      streamsOf Recorded.calls (start array).array.receivers = [stream] ∧
      List.Forall₂ Source.ClosedOnce [stream] ((start array).retired.map Converted.inner) ∧
      Accounts Recorded.calls array (start array) := by
  let script : Script Complex32 :=
    ⟨.complex #[], 1000, none, true, none, none, 0, none, none, none, some .endOfStream⟩
  let receiver : ScriptedReceiver :=
    ⟨.ok (.scripted (.ofScript script 0)), 1, 1000, none, none, none, none, none, false, [], 0⟩
  let failing : ScriptedReceiver := { receiver with startFailure := some .overrun }
  let array : LockedArray (Recorded ScriptedReceiver Feed) Complex32 Plan :=
    ⟨[⟨receiver, []⟩, ⟨failing, []⟩], Planner.ofKernel fun _ samples => samples, ⟨2, 1, none⟩, false⟩
  have accounts : Accounts Recorded.calls array (start array) :=
    start_accounts Recorded.logs_calls (by simp [array])
  have failed : (start array).outcome = .fail .overrun := rfl
  have given : streamsOf Recorded.calls (start array).array.receivers =
      [.scripted (.ofScript script 0)] := rfl
  have closed := accounts.closed .overrun failed
  rw [given] at closed
  exact ⟨array, _, failed, given, closed, accounts⟩

end LockedArray

end Wideband
