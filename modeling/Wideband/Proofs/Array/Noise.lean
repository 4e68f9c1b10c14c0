import Wideband.Proofs.Array.Starting
import Wideband.Simulation.ScriptedReceiver

namespace Wideband

/-!
Which noise sources are on after a start. They are switched off in the order of the receivers up to
the first one that can not be, and those behind it are not asked (`Quieted`), so a noise source stays
on if it refuses itself or if one in front of it does (`LockedArray.start_quieted`).
-/

open Receiver

variable {τ ρ C R π F : Type}

/-- The noise source of a receiver is off, as far as the receiver still offers it. -/
def Dark [Receiver τ ρ F] (log : τ → List (Receiver.Call ρ)) (receiver : τ) : Prop :=
  ¬Lit (log receiver) ∨ Receiver.switchNoise receiver = none

inductive Quieted [Receiver τ ρ F] (log : τ → List (Receiver.Call ρ)) : List τ → Prop where
  | whole {receivers : List τ} (dark : ∀ receiver ∈ receivers, Dark log receiver) :
      Quieted log receivers
  | stopped {front rest : List τ} {receiver : τ} (dark : ∀ receiver ∈ front, Dark log receiver)
      (stuck : Stuck (log receiver))
      (unasked : ∀ receiver ∈ rest, ∀ result, .switched false result ∉ log receiver) :
      Quieted log (front ++ receiver :: rest)

variable [Receiver τ ρ F] {log : τ → List (Receiver.Call ρ)}

namespace Receiver

theorem Logs.dark_switch (logs : Logs log) {receiver : τ}
    (done : (Receiver.switch false receiver).1 = .ok ()) :
    Dark log (Receiver.switch false receiver).2 := by
  cases offered : Receiver.switchNoise receiver with
  | none =>
      rw [switch_absent offered]
      exact .inr offered
  | some act =>
      refine .inl ?_
      rw [logs.switched offered, done]
      exact not_lit_off _

theorem Logs.stuck_switch (logs : Logs log) {receiver : τ} {cause : Error}
    (failed : (Receiver.switch false receiver).1 = .error cause) :
    Stuck (log (Receiver.switch false receiver).2) := by
  cases offered : Receiver.switchNoise receiver with
  | none =>
      rw [switch_absent offered] at failed
      cases failed
  | some act => exact ⟨_, cause, by rw [logs.switched offered, failed]⟩

theorem Logs.dark_each (logs : Logs log) {receivers quieted : List τ}
    (off : each (Receiver.switch false) receivers = (.ok (), quieted)) :
    ∀ receiver ∈ quieted, Dark log receiver := by
  have passed := each_passed (Receiver.switch false) receivers
  rw [off] at passed
  cases passed with
  | whole _ done =>
      exact List.forall_mem_map.mpr fun receiver member => logs.dark_switch (done receiver member)

theorem Logs.quieted_each (logs : Logs log) {receivers : List τ}
    (unasked : ∀ receiver ∈ receivers, ∀ result, .switched false result ∉ log receiver) :
    Quieted log (each (Receiver.switch false) receivers).2 := by
  have passed := each_passed (Receiver.switch false) receivers
  generalize each (Receiver.switch false) receivers = result at passed
  cases passed with
  | whole _ done =>
      exact .whole (List.forall_mem_map.mpr fun receiver member =>
        logs.dark_switch (done receiver member))
  | stopped front failing rest cause done failed =>
      refine .stopped ?_ (logs.stuck_switch failed) fun receiver member => ?_
      · exact List.forall_mem_map.mpr fun receiver member =>
          logs.dark_switch (done receiver member)
      · exact unasked receiver (by simp [member])

theorem Logs.unasked_on (logs : Logs log) {receiver : τ}
    (unasked : ∀ result, .switched false result ∉ log receiver) :
    ∀ result, .switched false result ∉ log (Receiver.switch true receiver).2 := by
  cases offered : Receiver.switchNoise receiver with
  | none =>
      rw [switch_absent offered]
      exact unasked
  | some act =>
      intro result
      rw [logs.switched offered]
      simp [unasked result]

end Receiver

namespace LockedArray

theorem unasked_startEach [Sample C R] [Source ρ C] (logs : Logs log) {receivers : List τ}
    (unasked : ∀ receiver ∈ receivers, ∀ result, .switched false result ∉ log receiver) :
    ∀ receiver ∈ (startEach (C := C) receivers).2.2, ∀ result,
      .switched false result ∉ log receiver := by
  induction receivers with
  | nil => exact unasked
  | cons receiver rest ih =>
      obtain ⟨own, others⟩ := List.forall_mem_cons.mp unasked
      have next : ∀ result, .switched false result ∉ log (Receiver.start receiver).2 := by
        intro result
        rw [logs.start]
        simp [own result]
      cases started : Receiver.start receiver with
      | mk outcome after =>
          rw [started] at next
          cases outcome with
          | error failure =>
              simp only [startEach, started]
              exact List.forall_mem_cons.mpr ⟨next, others⟩
          | ok stream =>
              simp only [startEach, started]
              exact List.forall_mem_cons.mpr ⟨next, ih others⟩

theorem unasked_begun [Sample C R] [Source ρ C] (logs : Logs log) {receivers noisy started : List τ}
    {streams : List (Converted ρ C)} {result : Except Error Unit} {outcome : Outcome Unit}
    (unasked : ∀ receiver ∈ receivers, ∀ result, .switched false result ∉ log receiver)
    (on : each (switch true) receivers = (result, noisy))
    (begun : startEach noisy = (outcome, streams, started)) :
    ∀ receiver ∈ started, ∀ result, .switched false result ∉ log receiver := by
  have noisy := forall_each (fun _ => logs.unasked_on) unasked
  rw [on] at noisy
  have later := unasked_startEach (C := C) logs noisy
  rw [begun] at later
  exact later

variable [Component R] [Sample C R] [Source ρ C]

/-- After a start that succeeds no noise source is on. After one that fails, one is on only if it could
not be switched off, or one in front of it could not. -/
theorem start_quieted (logs : Logs log) {array : LockedArray τ C π}
    (fresh : ∀ receiver ∈ array.receivers, log receiver = [])
    (intact : (start array).outcome ≠ .error .fault) :
    Quieted log (start array).array.receivers ∧
      ∀ session, (start array).outcome = .ok session →
        ∀ receiver ∈ (start array).array.receivers, Dark log receiver := by
  have unasked : ∀ receiver ∈ array.receivers, ∀ result,
      .switched false result ∉ log receiver := by
    intro receiver member result
    rw [fresh receiver member]
    exact List.not_mem_nil
  have ended := start_ended array
  generalize start array = left at intact ended ⊢
  cases ended with
  | refused refusal =>
      refine ⟨.whole fun receiver member => .inl (not_lit_dark ?_), nofun⟩
      rw [fresh receiver member]
      exact List.not_mem_nil
  | unswitched on =>
      have noisy := forall_each (fun _ => logs.unasked_on) unasked
      rw [on] at noisy
      exact ⟨logs.quieted_each noisy, nofun⟩
  | unstarted on begun => exact ⟨logs.quieted_each (unasked_begun logs unasked on begun), nofun⟩
  | unlocked on begun locked failed =>
      exact ⟨logs.quieted_each (unasked_begun logs unasked on begun), nofun⟩
  | loud on begun locked found off =>
      have quieted := logs.quieted_each (unasked_begun logs unasked on begun)
      rw [off] at quieted
      exact ⟨quieted, nofun⟩
  | done on begun locked found off =>
      have dark := logs.dark_each off
      exact ⟨.whole dark, fun _ _ => dark⟩
  | broken fault => exact absurd fault intact

theorem start_quieted_refusal :
    ∃ array : LockedArray (Recorded ScriptedReceiver Feed) Complex32 Plan,
      (start array).outcome = .fail .overrun ∧
      Quieted Recorded.calls (start array).array.receivers := by
  let willing : ScriptedReceiver :=
    ⟨.ok default, 0, 1000, some ⟨none, none, []⟩, none, none, none, none, false, [], 0⟩
  let refusing : ScriptedReceiver :=
    { willing with
      noise := some ⟨none, some .endOfStream, []⟩
      startFailure := some .overrun }
  let array : LockedArray (Recorded ScriptedReceiver Feed) Complex32 Plan :=
    ⟨[⟨willing, []⟩, ⟨refusing, []⟩], Planner.ofKernel fun _ samples => samples, ⟨2, 1, none⟩,
      false⟩
  have failed : (start array).outcome = .fail .overrun := rfl
  have fresh : ∀ receiver ∈ array.receivers, receiver.calls = [] := by simp [array]
  have intact : (start array).outcome ≠ .error .fault := by simp [failed, Outcome.fail]
  exact ⟨array, failed, (start_quieted Recorded.logs_calls fresh intact).1⟩

theorem noise_left_on :
    ∃ (array : LockedArray (Recorded ScriptedReceiver Feed) Complex32 Plan)
        (first second : Recorded ScriptedReceiver Feed),
      (∀ receiver ∈ array.receivers, receiver.calls = []) ∧
      (start array).outcome = .fail .endOfStream ∧
      (start array).array.receivers = [first, second] ∧
      Lit second.calls ∧ (Receiver.switch false second).1 = .ok () := by
  let willing : ScriptedReceiver :=
    ⟨.ok default, 0, 1000, some ⟨none, none, []⟩, none, none, none, none, false, [], 0⟩
  let refusing : ScriptedReceiver :=
    { willing with
      noise := some ⟨none, some (.notSupported "bias-t"), []⟩
      startFailure := some .endOfStream }
  let array : LockedArray (Recorded ScriptedReceiver Feed) Complex32 Plan :=
    ⟨[⟨refusing, []⟩, ⟨willing, []⟩], Planner.ofKernel fun _ samples => samples, ⟨2, 1, none⟩,
      false⟩
  exact ⟨array, _, _, by simp [array], rfl, rfl, ⟨[], [], rfl, List.not_mem_nil⟩, rfl⟩

end LockedArray

end Wideband
