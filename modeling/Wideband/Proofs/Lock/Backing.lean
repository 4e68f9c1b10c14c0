import Wideband.Proofs.Lock.Books
import Wideband.Proofs.Lock.Dues

namespace Wideband.Lock.Work

/-!
The report of a lock against its sources. Where these keep to what a read promises, a run goes through
states (`Backed`) in which every skip that is entered into the report has moved its stream by just as
many samples and left the others alone, and in which nothing else is entered.
-/

variable {ρ C R π : Type} {position : ρ → ℕ} {work next last : Work ρ C π} {log later : List Event}
  {index count : ℕ}

/-- The events of a log, and the states between them as far as the report is concerned. -/
inductive Backed (position : ρ → ℕ) : Work ρ C π → List Event → Work ρ C π → Prop where
  | idle {work next : Work ρ C π} {log : List Event} (none : ∀ stream, discarded stream log = 0)
      (kept : ∀ stream, next.skipped stream = work.skipped stream) : Backed position work log next
  | skip {work next : Work ρ C π} {index count : ℕ}
      (advanced : Advanced position index count work next) :
      Backed position work [.skip index count (.ok ())] next
  | trans {work next last : Work ρ C π} {log later : List Event}
      (first : Backed position work log next) (second : Backed position next later last) :
      Backed position work (log ++ later) last

theorem Balanced.backed (balanced : Balanced log work next)
    (none : ∀ stream, discarded stream log = 0) : Backed position work log next :=
  .idle none fun stream => (balanced.drained stream).trans (by rw [none, Nat.add_zero])

section Draining

variable [Zero C] [Source ρ C]

theorem advanced_of_discard (honest : Source.Honest (C := C) position)
    (paired : work.sources.length = work.synchronizer.report.drained.length)
    (skipped : work.discard index count = (.ok (), next)) :
    Advanced position index count work next := by
  have ways := work.discards index count
  rw [skipped] at ways
  generalize same : (Except.ok (), next) = result at ways
  cases ways with
  | absent none => cases same
  | failed source failure own skip => cases failure <;> cases same
  | done source own skip =>
      obtain ⟨inside, _⟩ := List.getElem?_eq_some_iff.mp own
      obtain rfl := (Prod.mk.inj same).2
      exact advanced_discard honest own (paired ▸ inside) skip

theorem Discarding.backed {result : Outcome Unit × Work ρ C π}
    (discarding : Discarding work log result) (honest : Source.Honest (C := C) position)
    (paired : work.sources.length = work.synchronizer.report.drained.length) :
    Backed position work log result.2 := by
  induction discarding with
  | done => exact .idle (fun _ => rfl) fun _ => rfl
  | stuck index count failed =>
      have booked := discard_booked index count paired
      rw [failed] at booked
      exact booked.toBalanced.backed fun _ => rfl
  | onward index count skipped _ ih =>
      have advanced := advanced_of_discard honest paired skipped
      exact .trans (.skip advanced)
        (ih (advanced.streams.trans (paired.trans advanced.columns.symm)))

end Draining

variable [Component R] [Sample C R] [Source ρ C]

theorem step_backed (planner : Planner C π) (honest : Source.Honest (C := C) position)
    (paired : work.sources.length = work.synchronizer.report.drained.length) :
    Backed position work (work.stepLog planner) (work.step planner).2 := by
  have balanced := step_balanced planner paired
  have measures (stream : ℕ) : discarded stream
      (.round :: work.begun.measureLog planner work.synchronizer.settings.trials none) = 0 := by
    have silent := discarded_of_measures
      (work.begun.measureLog_measures planner work.synchronizer.settings.trials none).1 stream
    simpa [discarded, Event.discarded] using silent
  have drained (offsets : List ℤ) :
      Backed position work (.poll false :: (work.inPhase .measuring).drainLog offsets)
        ((work.inPhase .measuring).drain offsets).2 := by
    have polled : Backed position work [.poll false] (work.inPhase .measuring) :=
      .idle (fun _ => rfl) fun _ => rfl
    exact polled.trans (((work.inPhase .measuring).drain_discarding offsets).backed honest paired)
  have way := stepped planner work
  generalize work.step planner = went at way balanced ⊢
  generalize work.stepLog planner = log at way balanced ⊢
  cases way with
  | gaveUp measuring => exact balanced.backed fun _ => rfl
  | finished locked => exact balanced.backed fun _ => rfl
  | halted offsets draining => exact balanced.backed fun _ => rfl
  | settled offsets draining zero => exact balanced.backed fun _ => rfl
  | broke measuring failure next measured => exact balanced.backed measures
  | agreed measuring offsets next measured => exact balanced.backed measures
  | rejected measuring next measured => exact balanced.backed measures
  | stuck offsets draining failure next ended =>
      have after := drained offsets
      rwa [ended] at after
  | drained offsets draining next ended =>
      have after := drained offsets
      rwa [ended] at after

theorem stepsFor_backed (planner : Planner C π) (steps : ℕ)
    (honest : Source.Honest (C := C) position)
    (paired : work.sources.length = work.synchronizer.report.drained.length) :
    Backed position work (work.stepsLog planner steps) (work.stepsFor planner steps).2 := by
  induction steps generalizing work with
  | zero => exact .idle (fun _ => rfl) fun _ => rfl
  | succ steps ih =>
      have first := step_backed planner honest paired
      have books := step_balanced planner paired
      unfold stepsFor stepsLog
      cases went : work.step planner with
      | mk progress next =>
          rw [went] at first books
          cases progress with
          | ended outcome =>
              simp only [List.append_nil]
              exact first
          | ongoing => exact first.trans (ih (books.sources.trans (paired.trans books.columns.symm)))

end Wideband.Lock.Work
