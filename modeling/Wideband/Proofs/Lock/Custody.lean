import Wideband.Lock.Rotators
import Wideband.Proofs.Lock.Soundness
import Wideband.Proofs.Source.Wear

namespace Wideband.Lock

/-!
What a lock may do to the streams that it is given, also where it fails: it reads them, closes none
and mixes none up, and it raises the token of the session only where a read does (`Work.Later`).
-/

variable {ρ C R π : Type} [Source ρ C]

namespace Work

structure Later (work next : Work ρ C π) : Prop where
  worn : List.Forall₂ Source.Worn work.sources next.sources
  calm : Source.Calm ρ → next.cancelled = work.cancelled

variable {work next last : Work ρ C π}

theorem Later.still (sources : next.sources = work.sources)
    (cancelled : next.cancelled = work.cancelled) : Later work next where
  worn := by
    rw [sources]
    exact Source.worn_same work.sources
  calm _ := cancelled

theorem Later.trans (first : Later work next) (second : Later next last) : Later work last where
  worn := forall₂_trans (fun first second => first.trans second) first.worn second.worn
  calm calm := (second.calm calm).trans (first.calm calm)

section Draining

variable [Zero C]

theorem discard_later (work : Work ρ C π) (index count : ℕ) :
    Later work (work.discard index count).2 := by
  have passed (source : ρ) (own : work.sources[index]? = some source) :
      Later work (work.passed index source count) := by
    refine ⟨?_, fun calm => ?_⟩
    · refine List.forall₂_of_length_eq_of_get (List.length_set).symm ?_
      intro stream inside other
      obtain ⟨bound, found⟩ := List.getElem?_eq_some_iff.mp own
      simp only [List.get_eq_getElem, Work.passed]
      rw [List.getElem_set]
      split
      · rename_i same
        subst same
        rw [found]
        exact Source.skip_worn source count _
      · exact .refl _
    · have silent := Source.skip_calm calm source count work.synchronizer.settings.length
      simp only [Work.passed, silent, Bool.or_false]
  have ways := work.discards index count
  generalize work.discard index count = result at ways ⊢
  cases ways with
  | absent none => exact .still rfl rfl
  | failed source failure own skip => exact passed source own
  | done source own skip => exact (passed source own).trans (.still rfl rfl)

theorem Discarding.later {log : List Event} {result : Outcome Unit × Work ρ C π}
    (discarding : Discarding work log result) : Later work result.2 := by
  induction discarding with
  | done => exact .still rfl rfl
  | @stuck work _ _ index count failed =>
      have first := work.discard_later index count
      rwa [failed] at first
  | @onward work _ _ _ index count skipped _ ih =>
      have first := work.discard_later index count
      rw [skipped] at first
      exact first.trans ih

end Draining

variable [Component R] [Sample C R]

theorem correlate_later (planner : Planner C π) (work : Work ρ C π) :
    Later work (work.correlate planner).2 := by
  unfold correlate
  repeat' split
  · exact .still rfl rfl
  · exact .still rfl rfl
  · exact .still rfl rfl

theorem fetched_later (work : Work ρ C π) : Later work work.fetched where
  worn := Source.fillAll_worn .measuring work.sources work.synchronizer.buffers
  calm calm := by
    have silent : work.gathered.signals.cancels = false := Source.fillAll_calm calm _ _ _
    rw [fetched, silent, Bool.or_false]

theorem trial_later (planner : Planner C π) (work : Work ρ C π) :
    Later work (work.trial planner).2 := by
  rw [trial_eq]
  split
  · exact work.fetched_later
  · exact work.fetched_later.trans (work.fetched.correlate_later planner)

theorem measure_later (planner : Planner C π) (trials : ℕ) (agreed : Option (List ℤ))
    (work : Work ρ C π) : Later work (work.measure planner trials agreed).2 := by
  induction trials generalizing agreed work with
  | zero => exact .still rfl rfl
  | succ trials ih =>
      have first := work.trial_later planner
      unfold measure
      split
      · exact .still rfl rfl
      split
      · rename_i failure next tried
        rwa [tried] at first
      · rename_i offsets next tried
        rw [tried] at first
        split
        · exact first.trans (ih _ next)
        split
        · exact first.trans (ih _ next)
        · exact first

theorem step_later (planner : Planner C π) (work : Work ρ C π) :
    Later work (work.step planner).2 := by
  have begun : Later work (work.begun.measure planner work.synchronizer.settings.trials none).2 :=
    (Later.still rfl rfl : Later work work.begun).trans (work.begun.measure_later planner _ none)
  have drained (offsets : List ℤ) : Later work ((work.inPhase .measuring).drain offsets).2 :=
    (Later.still rfl rfl : Later work (work.inPhase .measuring)).trans
      ((work.inPhase .measuring).drain_discarding offsets).later
  have way := stepped planner work
  generalize work.step planner = went at way ⊢
  generalize work.stepLog planner = log at way
  cases way with
  | gaveUp measuring => exact .still rfl rfl
  | broke measuring failure next measured =>
      rwa [measured] at begun
  | agreed measuring offsets next measured =>
      rw [measured] at begun
      exact begun.trans (.still rfl rfl)
  | rejected measuring next measured =>
      rw [measured] at begun
      exact begun.trans (.still rfl rfl)
  | halted offsets draining => exact .still rfl rfl
  | settled offsets draining zero => exact .still rfl rfl
  | stuck offsets draining failure next ended =>
      have after := drained offsets
      rwa [ended] at after
  | drained offsets draining next ended =>
      have after := drained offsets
      rwa [ended] at after
  | finished locked => exact .still rfl rfl

theorem stepsFor_later (planner : Planner C π) (steps : ℕ) (work : Work ρ C π) :
    Later work (work.stepsFor planner steps).2 := by
  induction steps generalizing work with
  | zero => exact .still rfl rfl
  | succ steps ih =>
      have first := work.step_later planner
      unfold stepsFor
      split
      · rename_i outcome next went
        rwa [went] at first
      · rename_i next went
        rw [went] at first
        exact first.trans (ih next)

end Work

variable [Component R] [Sample C R]

theorem Synchronizer.run_later (planner : Planner C π) (synchronizer : Synchronizer C π)
    (sources : List ρ) (cancelled : Bool) :
    Work.Later ⟨synchronizer, sources, cancelled⟩
      (synchronizer.run planner sources cancelled).2 := by
  unfold run
  split
  · exact .still rfl rfl
  · exact Work.stepsFor_later planner _ _

/-- What is left behind when sources were used in a session whose token had the given state: the
sources, read and not closed, and the token, raised only where a read did. -/
structure Used.Keeps {α : Type} (sources : List ρ) (cancelled : Bool) (used : Used ρ α) : Prop where
  worn : List.Forall₂ Source.Worn sources used.sources
  calm : Source.Calm ρ → used.cancelled = cancelled

theorem Used.Keeps.trans {α β : Type} {sources : List ρ} {cancelled : Bool} {used : Used ρ α}
    {next : Used ρ β} (first : used.Keeps sources cancelled)
    (second : next.Keeps used.sources used.cancelled) : next.Keeps sources cancelled where
  worn := forall₂_trans (fun first second => first.trans second) first.worn second.worn
  calm calm := (second.calm calm).trans (first.calm calm)

theorem synchronize_keeps (planner : Planner C π) (settings : Settings) (sources : List ρ)
    (cancelled : Bool) :
    (synchronize planner settings sources cancelled).Keeps sources cancelled := by
  unfold synchronize
  split
  · exact ⟨Source.worn_same sources, fun _ => rfl⟩
  · rename_i synchronizer prepared
    obtain ⟨worn, calm⟩ := synchronizer.run_later planner sources cancelled
    exact ⟨worn, calm⟩

theorem readRotators_keeps (sources : List ρ) (length : ℕ) (cancelled : Bool) :
    (readRotators sources length cancelled).Keeps sources cancelled := by
  unfold readRotators
  split
  · exact ⟨Source.worn_same sources, fun _ => rfl⟩
  · refine ⟨Source.fillAll_worn .phasing sources _, fun calm => ?_⟩
    dsimp only
    rw [Source.fillAll_calm calm, Bool.or_false]

theorem length_allSamples {buffers : List (Buffer C)} {samples : List (Array C)}
    (read : allSamples buffers = .ok samples) : samples.length = buffers.length := by
  induction buffers generalizing samples with
  | nil =>
      cases read
      rfl
  | cons buffer buffers ih =>
      obtain ⟨first, _, rest⟩ := Outcome.of_bind read
      obtain ⟨others, found, rest⟩ := Outcome.of_bind rest
      cases rest
      rw [List.length_cons, List.length_cons, ih found]

theorem length_readRotators {sources : List ρ} {length : ℕ} {cancelled : Bool} {factors : List C}
    (found : (readRotators sources length cancelled).outcome = .ok factors) :
    factors.length = (readRotators sources length cancelled).sources.length := by
  have worn := (readRotators_keeps sources length cancelled).worn
  rw [← worn.length_eq]
  unfold readRotators at found
  split at found
  · cases found
  · let buffers := sources.map fun _ => (Buffer.silent .complex length : Buffer C)
    have paired : sources.length = buffers.length := by simp [buffers]
    have views : (Source.fillAll .phasing sources buffers).buffers.length = sources.length := by
      simp [Source.fillAll, ← paired]
    dsimp only at found
    split at found
    · cases found
    · cases read : allSamples (Source.fillAll .phasing sources buffers).buffers with
      | error cause =>
          rw [read] at found
          cases found
      | ok samples =>
          rw [read] at found
          cases found
          have whole := (length_allSamples read).trans views
          cases samples with
          | nil => exact whole
          | cons reference others =>
              rw [← whole]
              simp [rotators]

end Wideband.Lock
