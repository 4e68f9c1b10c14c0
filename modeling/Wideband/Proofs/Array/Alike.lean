import Mathlib.Data.List.Forall2
import Wideband.Proofs.Array.Starting
import Wideband.Proofs.Lock.Cancelling

namespace Wideband

open Lock

variable {τ ρ C R π F : Type} [Receiver τ ρ F] {alike : τ → τ → Prop}

namespace Receiver

/-- Receivers that answer alike, now and after any calls of a start. -/
structure Alike (alike : τ → τ → Prop) : Prop where
  rate {receiver other : τ} (same : alike receiver other) :
    Receiver.rate receiver = Receiver.rate other
  switch {receiver other : τ} (same : alike receiver other) (enabled : Bool) :
    (Receiver.switch enabled receiver).1 = (Receiver.switch enabled other).1 ∧
      alike (Receiver.switch enabled receiver).2 (Receiver.switch enabled other).2
  start {receiver other : τ} (same : alike receiver other) :
    (Receiver.start receiver).1 = (Receiver.start other).1 ∧
      alike (Receiver.start receiver).2 (Receiver.start other).2

theorem alike_eq : Alike (Eq : τ → τ → Prop) where
  rate same := by rw [same]
  switch same _ := by simp [same]
  start same := by simp [same]

theorem Alike.rates (congruent : Alike alike) {receivers others : List τ}
    (same : List.Forall₂ alike receivers others) :
    receivers.map Receiver.rate = others.map Receiver.rate := by
  induction same with
  | nil => rfl
  | cons own _ ih => rw [List.map_cons, List.map_cons, congruent.rate own, ih]

theorem Alike.each (congruent : Alike alike) (enabled : Bool) {receivers others : List τ}
    (same : List.Forall₂ alike receivers others) :
    (Receiver.each (Receiver.switch enabled) receivers).1 =
        (Receiver.each (Receiver.switch enabled) others).1 ∧
      List.Forall₂ alike (Receiver.each (Receiver.switch enabled) receivers).2
        (Receiver.each (Receiver.switch enabled) others).2 := by
  induction same with
  | nil => exact ⟨rfl, .nil⟩
  | @cons receiver other receivers others own rest ih =>
      obtain ⟨answer, next⟩ := congruent.switch own enabled
      cases first : Receiver.switch enabled receiver with
      | mk result after =>
          cases second : Receiver.switch enabled other with
          | mk result' after' =>
              rw [first, second] at answer next
              obtain rfl : result = result' := answer
              cases result with
              | error cause =>
                  simp only [Receiver.each, first, second]
                  exact ⟨trivial, .cons next rest⟩
              | ok _ =>
                  simp only [Receiver.each, first, second]
                  exact ⟨ih.1, .cons next ih.2⟩

theorem Alike.startEach [Sample C R] [Source ρ C] (congruent : Alike alike)
    {receivers others : List τ} (same : List.Forall₂ alike receivers others) :
    (LockedArray.startEach (C := C) receivers).1 = (LockedArray.startEach (C := C) others).1 ∧
      (LockedArray.startEach (C := C) receivers).2.1 =
        (LockedArray.startEach (C := C) others).2.1 ∧
      List.Forall₂ alike (LockedArray.startEach (C := C) receivers).2.2
        (LockedArray.startEach (C := C) others).2.2 := by
  induction same with
  | nil => exact ⟨rfl, rfl, .nil⟩
  | @cons receiver other receivers others own rest ih =>
      obtain ⟨answer, next⟩ := congruent.start own
      cases first : Receiver.start receiver with
      | mk outcome after =>
          cases second : Receiver.start other with
          | mk outcome' after' =>
              rw [first, second] at answer next
              obtain rfl : outcome = outcome' := answer
              cases outcome with
              | error failure =>
                  simp only [LockedArray.startEach, first, second]
                  exact ⟨trivial, trivial, .cons next rest⟩
              | ok stream =>
                  obtain ⟨begun, streams, later⟩ := ih
                  simp only [LockedArray.startEach, first, second, begun, streams]
                  exact ⟨trivial, trivial, .cons next later⟩

end Receiver

namespace LockedArray

variable [Component R] [Sample C R] [Source ρ C] {array : LockedArray τ C π} {others : List τ}

theorem start_alike (congruent : Receiver.Alike alike)
    (same : List.Forall₂ alike array.receivers others) :
    (start { array with receivers := others }).outcome = (start array).outcome := by
  obtain ⟨on, noisy⟩ := congruent.each true same
  obtain ⟨begun, streams, started⟩ := congruent.startEach (C := C) noisy
  obtain ⟨off, _⟩ := congruent.each false started
  have rates : rate { array with receivers := others } = array.rate := by
    rw [rate, rate, congruent.rates same]
  rw [start_answer, start_answer, answer, answer]
  dsimp only
  rw [rates, on, begun, streams, off]

theorem lockStreams_cancelled (planner : Planner C π) (settings : Settings)
    (streams : List (Converted ρ C)) :
    ∃ failure, (lockStreams planner settings streams true).outcome = .error failure ∧
      Barred planner (lockStreams planner settings streams false).outcome failure := by
  obtain ⟨failure, failed, barred⟩ := synchronize_cancelled planner settings streams
  refine ⟨failure, ?_, barred.mono fun failure live => ?_⟩
  · simp only [lockStreams, failed]
  · simp only [lockStreams, live]

/-- No start succeeds once the token of the array is raised. -/
theorem start_cancelled (live : array.cancelled = false) :
    ∃ failure, (start array.cancel).outcome = .error failure ∧
      Barred array.planner (start array).outcome failure := by
  have rates : rate array.cancel = array.rate := rfl
  rw [start_answer, start_answer]
  unfold answer
  rw [rates, live]
  simp only [cancel]
  generalize array.settings.check = check
  generalize array.rate = rate
  obtain ⟨on, noisy⟩ := Receiver.each (Receiver.switch true) array.receivers
  dsimp only
  obtain ⟨begun, streams, started⟩ := startEach (C := C) noisy
  dsimp only
  obtain ⟨reason, failed, barred⟩ := lockStreams_cancelled array.planner array.settings streams
  rw [failed]
  -- What fails before the lock does so with either token.
  cases check with
  | error cause => exact ⟨_, rfl, .refused rfl⟩
  | ok _ =>
      cases rate with
      | error cause => exact ⟨_, rfl, .refused rfl⟩
      | ok rate =>
          cases on with
          | error cause => exact ⟨_, rfl, .refused rfl⟩
          | ok _ =>
              cases begun with
              | error failure => exact ⟨_, rfl, .refused rfl⟩
              | ok _ =>
                  refine ⟨reason, rfl, barred.mono fun failure same => ?_⟩
                  rw [same]
                  rfl

end LockedArray

end Wideband
